import Rollout.Control.Client
import Rollout.Control.Router
import Rollout.Proofs.Pool.Text

/-!
# The control plane is transparent

To drive a table through the client and the router is to call it directly, where each body is within
the limit and every answer arrives as it was sent.

* **Requests** (`Request.decode_value`, `accept_http`): the router reads from the request of a call
  the call itself.
* **Answers** (`Request.result_respond`): the client reads from the response to a call what the call
  answered; a refusal comes with its status and its message (`Request.hears`).
* **The law** (`transparent`): by induction over the calls, both go through the same tables and give
  the same answers.
-/

namespace Rollout

/-! ## Messages -/

/-- A text that neither begins nor ends with a blank has none to drop. -/
theorem Text.trim_eq {s : String} {c d : Char} (hfront : s.toList.head? = some c)
    (hc : isBlank c = false) (hback : s.toList.getLast? = some d) (hd : isBlank d = false) :
    Text.trim s = s := by
  have hdrop : ∀ {cs : List Char} {c : Char}, cs.head? = some c → isBlank c = false →
      cs.dropWhile isBlank = cs := by
    intro cs c h hc
    cases cs with
    | nil => rfl
    | cons _ cs =>
      obtain rfl := Option.some.inj h
      exact List.dropWhile_cons_of_neg (by simp [hc])
  rw [trim, trimChars, hdrop hfront hc, hdrop (by rwa [List.head?_reverse]) hd,
    List.reverse_reverse, String.ofList_toList]

theorem Text.head?_append {front : String} {c : Char} (h : front.toList.head? = some c)
    (back : String) : (front ++ back).toList.head? = some c := by
  rw [String.toList_append, List.head?_append, h]
  rfl

theorem Text.getLast?_append {back : String} {c : Char} (h : back.toList.getLast? = some c)
    (front : String) : (front ++ back).toList.getLast? = some c := by
  rw [String.toList_append, List.getLast?_append, h]
  rfl

theorem Text.getLast?_quoted (s : String) : (Text.quoted s).toList.getLast? = some '"' := by
  rw [quoted, String.toList_ofList, List.getLast?_append]
  rfl

namespace PoolError

/-- Whether an error is the refusal of a call by a table of pools. -/
def IsRefusal : PoolError → Prop
  | poolNotFound _ | poolExists _ | backendExists _ _ | backendNotFound _ _ => True
  | _ => False

/-- The message of a refusal has no blanks at its ends. -/
theorem trim_message {e : PoolError} (h : e.IsRefusal) : Text.trim e.message = e.message := by
  have hpool : "pool ".toList.head? = some 'p' := by decide +kernel
  have hbackend : "backend ".toList.head? = some 'b' := by decide +kernel
  cases e with
  | poolNotFound pattern =>
    exact Text.trim_eq (Text.head?_append (Text.head?_append hpool _) _) rfl
      (Text.getLast?_append (c := 'd') (by decide +kernel) _) rfl
  | poolExists pattern =>
    exact Text.trim_eq (Text.head?_append (Text.head?_append hpool _) _) rfl
      (Text.getLast?_append (c := 's') (by decide +kernel) _) rfl
  | backendExists pattern b =>
    exact Text.trim_eq
      (Text.head?_append (Text.head?_append (Text.head?_append hbackend _) _) _) rfl
      (Text.getLast?_append (Text.getLast?_quoted pattern) _) rfl
  | backendNotFound pattern b =>
    exact Text.trim_eq
      (Text.head?_append (Text.head?_append (Text.head?_append hbackend _) _) _) rfl
      (Text.getLast?_append (Text.getLast?_quoted pattern) _) rfl
  | _ => exact h.elim

end PoolError

namespace Control

open Document Http

/-! ## Requests -/

namespace Request

theorem exact (r : Request) : r.value.Exact := by
  cases r with
  | poolHealth pattern => exact ⟨trivial, trivial⟩
  | addPool pattern type checks => exact ⟨trivial, trivial, checks.exact, trivial⟩
  | addBackend pattern b => exact ⟨trivial, b.exact, trivial⟩
  | removeBackend pattern b => exact ⟨trivial, b.exact, trivial⟩

theorem restores_backend (make : String → Backend → Request) (pattern : String) (b : Backend) :
    (backendRecord make).decode (.streamed maxLevels)
      (Value.object [("pattern", .string pattern), ("backend", b.value)]).node =
      .ok (make pattern b) := by
  have hpattern := Restores.text pattern (maxLevels - 1) (by decide)
  have hbackend := b.restores (maxLevels - 1) (by decide)
  rw [Record.decode_object (by decide), Record.members_of rfl rfl hpattern,
    Record.members_of rfl rfl hbackend]
  rfl

/-- A call is read from its document. -/
theorem decode_value (r : Request) :
    decode r.endpoint (.streamed maxLevels) r.value.node = .ok r := by
  cases r with
  | poolHealth pattern =>
    have hpattern := Restores.text pattern (maxLevels - 1) (by decide)
    rw [endpoint, decode, value, Record.decode_object (by decide),
      Record.members_of rfl rfl hpattern]
    rfl
  | addPool pattern type checks =>
    have hpattern := Restores.text pattern (maxLevels - 1) (by decide)
    have htype := type.restores (maxLevels - 1) (by decide)
    have hchecks := checks.restores (maxLevels - 1) (by decide)
    rw [endpoint, decode, value, Record.decode_object (by decide),
      Record.members_of rfl rfl hpattern, Record.members_of rfl rfl htype,
      Record.members_of rfl rfl hchecks]
    rfl
  | addBackend pattern b => exact restores_backend addBackend pattern b
  | removeBackend pattern b => exact restores_backend removeBackend pattern b

end Request

/-- The router takes the request of a call as the call. -/
theorem accept_http (r : Request) (h : r.http.body.length ≤ maxBody) :
    accept r.http = .ok (r.endpoint, r) := by
  have hpath : Endpoint.ofPath? r.http.path = some r.endpoint := by
    show Endpoint.ofPath? (String.ofList (Http.pathOf r.endpoint.path.toList)) = _
    generalize r.endpoint = endpoint
    cases endpoint <;> decide +kernel
  have hpost : ¬ r.http.method ≠ "POST" := not_not_intro rfl
  have hjson : claimsJson r.http = true := by
    show (MediaType.read? Http.jsonType).any MediaType.isJson = true
    decide +kernel
  have hdecode : Json.decodeBytes (Request.decode r.endpoint) r.http.body = .ok r :=
    (Json.decodeBytes_compact _ _ r.exact).trans r.decode_value
  rw [accept, hpath]
  simp only [hjson, hdecode]
  rw [if_neg hpost, if_neg nofun, if_neg (Nat.not_lt.mpr h)]

/-- The router answers the request of a call as the table answers the call. -/
theorem serve_http (r : Request) (t : Table) (h : r.http.body.length ≤ maxBody) :
    serve t r.http = (respond r.endpoint (r.perform t).1, (r.perform t).2) := by
  rw [serve, accept_http r h]

/-! ## Answers -/

namespace Request

variable {r : Request} {t : Table}

/-- What the client makes of a refusal by the table. -/
def hears (r : Request) : PoolError → PoolError
  | e@(.poolNotFound _) | e@(.backendNotFound _ _) => .status r.endpoint.path 404 e.message
  | e@(.poolExists _) | e@(.backendExists _ _) => .status r.endpoint.path 409 e.message
  | e => e

/-- A table fails to carry out a call by a refusal only. -/
theorem isRefusal_of_perform {e : PoolError} (h : (r.perform t).1 = .error e) : e.IsRefusal := by
  cases r with
  | poolHealth pattern | addPool pattern type checks =>
    simp only [perform, Table.health, Table.addPool] at h
    cases hp : t.pool? pattern <;> rw [hp] at h <;> cases h
    trivial
  | addBackend pattern b | removeBackend pattern b =>
    simp only [perform, Table.addBackend, Table.removeBackend] at h
    cases hp : t.pool? pattern <;> rw [hp] at h
    · cases h
      trivial
    · simp only [] at h
      split at h <;> cases h
      trivial

/-- What a table answers to a call that it carries out: a report to the question for one, and else
that it is done. -/
theorem answer_of_perform {a : Answer} (h : (r.perform t).1 = .ok a) :
    (∃ pattern health, r = .poolHealth pattern ∧ a = .health health) ∨
      ((∀ pattern, r ≠ .poolHealth pattern) ∧ a = .done) := by
  have hsettle : ∀ {x : Except PoolError Table}, (perform.settle t x).1 = .ok a → a = .done := by
    intro x hx
    cases x <;> cases hx
    rfl
  cases r with
  | poolHealth pattern =>
    simp only [perform] at h
    split at h <;> cases h
    exact .inl ⟨_, _, rfl, rfl⟩
  | addPool pattern type checks => exact .inr ⟨nofun, hsettle h⟩
  | addBackend pattern b => exact .inr ⟨nofun, hsettle h⟩
  | removeBackend pattern b => exact .inr ⟨nofun, hsettle h⟩

/-- The client reads a report as it is. -/
theorem readAnswer_health (pattern : String) (health : PoolHealth) :
    (poolHealth pattern).readAnswer (Text.Utf8.bytes (Json.compact health.value)) =
      .ok (.health health) := by
  rw [readAnswer, Json.decodeBytes_compact _ _ health.exact,
    health.restores maxLevels (by decide)]

/-- The client reads a refusal with its status and its message. -/
theorem result_refusal (r : Request) (addr : String) {e : PoolError} (h : e.IsRefusal) :
    r.result addr (.answered (plain (statusOf e) e.message).status
      (plain (statusOf e) e.message).body) = .error (r.hears e) := by
  have htext : Text.trim (Text.Utf8.lossy (plain (statusOf e) e.message).body) =
      e.message := by
    rw [plain, Text.Utf8.lossy_bytes, PoolError.trim_message h]
  cases e with
  | poolNotFound | backendNotFound =>
    exact congrArg (fun text => Except.error (PoolError.status r.endpoint.path 404 text)) htext
  | poolExists | backendExists =>
    exact congrArg (fun text => Except.error (PoolError.status r.endpoint.path 409 text)) htext
  | _ => exact h.elim

/-- The client reads from the response to a call what the table answered. -/
theorem result_respond (r : Request) (addr : String) (t : Table) :
    r.result addr (.answered (respond r.endpoint (r.perform t).1).status
      (respond r.endpoint (r.perform t).1).body) = (r.perform t).1.mapError r.hears := by
  cases hp : (r.perform t).1 with
  | error e => exact r.result_refusal addr (isRefusal_of_perform hp)
  | ok a =>
    rcases answer_of_perform hp with ⟨pattern, health, rfl, rfl⟩ | ⟨hr, rfl⟩
    · exact readAnswer_health pattern health
    · cases r with
      | poolHealth pattern => exact absurd rfl (hr pattern)
      | addPool | addBackend | removeBackend => rfl

end Request

/-! ## Sessions -/

/-- Sends a call over HTTP to the control plane of a table: what the client gets and the table
afterwards. -/
def Request.send (addr : String) (r : Request) (t : Table) : Except PoolError Answer × Table :=
  let (response, after) := serve t r.http
  (r.result addr (.answered response.status response.body), after)

/-- What calls one after the other give: each call, its answer and the table behind it. -/
def session (call : Request → Table → Except PoolError Answer × Table) :
    Table → List Request → List (Request × Except PoolError Answer × Table)
  | _, [] => []
  | t, r :: rest => (r, call r t) :: session call (call r t).2 rest

theorem send_eq (addr : String) (r : Request) (t : Table) (h : r.http.body.length ≤ maxBody) :
    r.send addr t = ((r.perform t).1.mapError r.hears, (r.perform t).2) := by
  rw [Request.send, serve_http r t h]
  simp only [r.result_respond addr t]

/-- **The law of the control plane.** Calls over HTTP, none with too large a body, go through the
same tables as the same calls of the table itself, and give the same answers; of a refusal they give
the status and the message. -/
theorem transparent (addr : String) (t : Table) (calls : List Request)
    (h : ∀ r ∈ calls, r.http.body.length ≤ maxBody) :
    session (Request.send addr) t calls =
      (session Request.perform t calls).map fun (r, answer, after) =>
        (r, answer.mapError r.hears, after) := by
  induction calls generalizing t with
  | nil => rfl
  | cons r rest ih =>
    have hr := send_eq addr r t (h r List.mem_cons_self)
    rw [session, hr, ih _ fun r hr => h r (List.mem_cons_of_mem _ hr)]
    rfl

/-- A backend of version 6. -/
def loopback : Backend := ⟨.v6 ⟨#v[0, 0, 0, 0, 0, 0, 0, 1]⟩, 80⟩

/-- Calls for a new pool, for the same member of it twice, for a report, and for a pool that is
missing. -/
def someCalls : List Request :=
  [.addPool "/\"é" .roundRobin (.standard "/healthz"), .addBackend "/\"é" loopback,
    .addBackend "/\"é" loopback, .poolHealth "/\"é", .removeBackend "/" loopback]

theorem transparent_calls :
    (∀ r ∈ someCalls, r.http.body.length ≤ maxBody) ∧
    (session (Request.send "127.0.0.1:8000") .empty someCalls).map (·.2.1) =
      [.ok .done, .ok .done,
        .error (.status "/v1/backend/add" 409 (PoolError.backendExists "/\"é" loopback).message),
        .ok (.health ⟨.full, [loopback]⟩),
        .error (.status "/v1/backend/remove" 404 (PoolError.poolNotFound "/").message)] := by
  have hsize : ∀ r ∈ someCalls, r.http.body.length ≤ maxBody := by
    have hbody (r : Request) : r.http.body =
        (Json.compactChars r.value).flatMap String.utf8EncodeChar := Text.Utf8.bytes_ofList _
    simp only [hbody]
    decide +kernel
  refine ⟨hsize, ?_⟩
  rw [transparent _ _ _ hsize]
  rfl

end Control

end Rollout
