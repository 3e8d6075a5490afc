import SynapseGateway.Proxy

/-!
# Headers through the proxy

A forwarded request is sent until it is answered or may not be sent again, and the
answer goes back with its status, its headers and its body. Both ways the headers
are copied one by one into a map that keeps one value for each name.
-/

namespace SynapseGateway

open Utf8 (Text)

/-! ## The way back -/

structure UpstreamResponse where
  status : Nat
  headers : List (String × Bytes)
  body : Bytes

structure SendError where
  isConnect : Bool
  detail : String

structure ProxyResponse where
  status : Nat
  headers : HeaderMap
  replacement : Option Json := none

def ProxyResponse.replaceBody (resp : ProxyResponse) (value : Json) : ProxyResponse :=
  { resp with replacement := some value }

structure ErrorRemap where
  when : Nat
  error : String
  detail : Option String

def ErrorRemap.apply (step : ErrorRemap) (resp : ProxyResponse) : ProxyResponse :=
  if resp.status = step.when then
    resp.replaceBody (match step.detail with
      | some d => .object [("error", str step.error), ("detail", str d)]
      | none => .object [("error", str step.error)])
  else resp

/-- A route with its response steps. -/
structure ProxyRoute extends CompiledRoute where
  response : List ErrorRemap

inductive Reply where
  | refused (r : Refusal)
  | replaced (status : Nat) (body : Json)
  | streamed (status : Nat) (headers : HeaderMap) (body : Bytes)

def methodIsIdempotent (method : String) : Bool :=
  ["GET", "HEAD", "OPTIONS", "TRACE", "PUT", "DELETE"].contains method

def sendErrorIsRetryable (e : SendError) (method : String) : Bool := e.isConnect || methodIsIdempotent method

/-- `attempt k` is what sending the request the `k`th time comes to. Attempt `k` and those
after it, with that many retries left: how many there were by then, and the last one's outcome. -/
def sendUpstream (attempt : Nat → Except SendError UpstreamResponse) (method : String) :
    (retries k : Nat) → Nat × Except SendError UpstreamResponse
  | retries, k =>
    match attempt k, retries with
    | .ok r, _ => (k + 1, .ok r)
    | .error e, 0 => (k + 1, .error e)
    | .error e, retries + 1 =>
      if sendErrorIsRetryable e method then sendUpstream attempt method retries (k + 1) else (k + 1, .error e)

def respond (steps : List ErrorRemap) (r : UpstreamResponse) : Reply :=
  let status := if 100 ≤ r.status ∧ r.status < 1000 then r.status else 502
  -- the same loop as over the caller's headers
  let presp := steps.foldl (fun resp step => step.apply resp) ⟨status, inboundHeaders r.headers, none⟩
  match presp.replacement with
  | some body => .replaced presp.status body
  | none => .streamed presp.status presp.headers r.body

/-- What a request leads to: the requests handed to the HTTP client, the answer, and the reply. -/
structure Exchange where
  sent : List Forward
  answer : Option UpstreamResponse
  reply : Reply

/-- The handler of a matched route. -/
def relay (http : HttpCrate) (attempt : Nat → Except SendError UpstreamResponse) (maxRetries : Nat)
    (route : ProxyRoute) (ctx : ResolvedContext) (req : IncomingRequest) : Exchange :=
  match forwardTo http route.toCompiledRoute ctx req with
  | .error refusal => ⟨[], none, .refused refusal⟩
  | .ok f =>
    let (attempts, outcome) := sendUpstream attempt f.method maxRetries 0
    match outcome with
    | .error e => ⟨List.replicate attempts f, none, .refused ⟨502, "request_failed", e.detail⟩⟩
    | .ok r => ⟨List.replicate attempts f, some r, respond route.response r⟩

/-! ## Headers kept -/

def endToEnd (fields : List (String × Bytes)) : List (String × Bytes) := fields.filter fun f => !isHopByHop f.1

def valuesOf (name : String) (fields : List (String × Bytes)) : List Bytes :=
  (fields.filter fun f => f.1.toLower = name).map (·.2)

/-- The fields that are received are those that are not hop-by-hop, each name with all its values in order. -/
def Faithful (fields : List (String × Bytes)) (received : HeaderMap) : Prop :=
  ∀ name, (received.lookup name).toList = valuesOf name (endToEnd fields)

/-- What is sent on is faithful to the caller's headers, and what comes back to the upstream's. -/
structure HeadersFaithful (x : Exchange) (headers : List (String × Bytes)) : Prop where
  request : ∀ f ∈ x.sent, Faithful headers f.headers
  response : ∀ r, x.answer = some r →
    ∃ status received body, x.reply = .streamed status received body ∧ Faithful r.headers received

/-- No two fields that are not hop-by-hop have one name. -/
def SingleValued (fields : List (String × Bytes)) : Prop := ((endToEnd fields).map (·.1.toLower)).Nodup

instance (fields : List (String × Bytes)) : Decidable (SingleValued fields) := inferInstanceAs (Decidable (List.Nodup _))

theorem valuesOf_cons (name : String) (f : String × Bytes) (fields : List (String × Bytes)) :
    valuesOf name (f :: fields) = if f.1.toLower = name then f.2 :: valuesOf name fields else valuesOf name fields := by
  unfold valuesOf
  by_cases h : f.1.toLower = name
  · rw [if_pos h, List.filter_cons_of_pos (by simpa using h), List.map_cons]
  · rw [if_neg h, List.filter_cons_of_neg (by simpa using h)]

theorem endToEnd_cons (f : String × Bytes) (fields : List (String × Bytes)) :
    endToEnd (f :: fields) = if isHopByHop f.1 then endToEnd fields else f :: endToEnd fields := by
  unfold endToEnd
  cases h : isHopByHop f.1 with
  | true => exact List.filter_cons_of_neg (by simp [h])
  | false => exact List.filter_cons_of_pos (by simp [h])

theorem lookup_inboundHeaders (name : String) (fields : List (String × Bytes)) :
    (inboundHeaders fields).lookup name = (valuesOf name (endToEnd fields)).getLast? := by
  suffices hgen : ∀ h : HeaderMap,
      (fields.foldl (fun h f => if isHopByHop f.1 then h else h.insert f.1.toLower f.2) h).lookup name =
        (valuesOf name (endToEnd fields)).getLast?.or (h.lookup name) by
    have h := hgen HeaderMap.empty
    rw [show HeaderMap.empty.lookup name = none from rfl, Option.or_none] at h
    exact h
  induction fields with
  | nil => exact fun _ => rfl
  | cons f fields ih =>
    intro h
    rw [List.foldl_cons, ih, endToEnd_cons]
    cases hhop : isHopByHop f.1 with
    | true => rfl
    | false =>
      simp only [Bool.false_eq_true, if_false]
      rw [valuesOf_cons]
      by_cases hname : f.1.toLower = name
      · rw [if_pos hname, hname, AList.lookup_insert, List.getLast?_cons]
        cases (valuesOf name (endToEnd fields)).getLast? <;> rfl
      · rw [if_neg hname, AList.lookup_insert_ne (Ne.symm hname)]

theorem getLast?_toList {l : List α} : l.getLast?.toList = l ↔ l.length ≤ 1 := by
  cases l with
  | nil => simp
  | cons a l =>
    cases l with
    | nil => simp
    | cons b l =>
      have hshort : (a :: b :: l).getLast?.toList.length ≤ 1 := by
        cases (a :: b :: l).getLast? <;> simp
      constructor
      · intro h
        rwa [h] at hshort
      · intro h
        simp at h

theorem singleValued_iff (fields : List (String × Bytes)) :
    SingleValued fields ↔ ∀ name, (valuesOf name (endToEnd fields)).length ≤ 1 := by
  unfold SingleValued
  rw [List.nodup_iff_count_le_one]
  apply forall_congr'
  intro name
  rw [List.count, List.countP_map, valuesOf, List.length_map, List.countP_eq_length_filter]
  rfl

theorem faithful_iff (fields : List (String × Bytes)) : Faithful fields (inboundHeaders fields) ↔ SingleValued fields := by
  rw [singleValued_iff]
  apply forall_congr'
  intro name
  rw [lookup_inboundHeaders]
  exact getLast?_toList

/-! ## A route without transforms -/

/-- The request gets past the route's gate, and its body within the limit. -/
def CompiledRoute.Admits (route : CompiledRoute) (ctx : ResolvedContext) (req : IncomingRequest) : Prop :=
  (∀ key ∈ route.requireContext, ctx.contains key = true) ∧ ∃ bytes, req.body = .ok bytes

structure ProxyRoute.Plain (route : ProxyRoute) : Prop where
  request : route.request = []
  response : route.response = []

section
variable (http : HttpCrate) {route : ProxyRoute} {ctx : ResolvedContext} {req : IncomingRequest}

theorem forwardTo_plain (hrequest : route.request = []) (h : route.Admits ctx req) :
    ∃ f, forwardTo http route.toCompiledRoute ctx req = .ok f ∧ f.method = req.method ∧
      f.headers = inboundHeaders req.headers := by
  obtain ⟨hgate, bytes, hbody⟩ := h
  have hany : route.requireContext.any (!ctx.contains ·) = false := by
    rw [List.any_eq_false]
    intro key hkey
    simp [hgate key hkey]
  unfold forwardTo
  rw [hany, hbody, hrequest]
  exact ⟨_, rfl, rfl, rfl⟩

theorem forwardTo_refused (h : ¬ route.Admits ctx req) :
    ∃ refusal, forwardTo http route.toCompiledRoute ctx req = .error refusal := by
  unfold forwardTo
  by_cases hany : route.requireContext.any (!ctx.contains ·) = true
  · rw [if_pos hany]
    exact ⟨_, rfl⟩
  · rw [if_neg hany]
    cases hbody : req.body with
    | error e => exact ⟨_, rfl⟩
    | ok bytes =>
      refine absurd ⟨?_, bytes, hbody⟩ h
      simpa using hany

variable {http}

theorem sendUpstream_sent (attempt : Nat → Except SendError UpstreamResponse) (method : String) (retries k : Nat) :
    k < (sendUpstream attempt method retries k).1 := by
  induction retries generalizing k with
  | zero =>
    unfold sendUpstream
    cases attempt k <;> exact Nat.lt_succ_self k
  | succ retries ih =>
    unfold sendUpstream
    cases attempt k with
    | ok r => exact Nat.lt_succ_self k
    | error e =>
      simp only
      split
      · exact Nat.lt_of_succ_lt (ih (k + 1))
      · exact Nat.lt_succ_self k

theorem sent_faithful {f : Forward} {headers : List (String × Bytes)} (hf : f.headers = inboundHeaders headers)
    {attempts : Nat} (h : 0 < attempts) :
    (∀ g ∈ List.replicate attempts f, Faithful headers g.headers) ↔ SingleValued headers := by
  rw [← faithful_iff, ← hf]
  constructor
  · intro hall
    exact hall f (List.mem_replicate.mpr ⟨h.ne', rfl⟩)
  · intro hone g hg
    rw [List.eq_of_mem_replicate hg]
    exact hone

theorem respond_faithful (r : UpstreamResponse) :
    (∃ status received body, respond [] r = .streamed status received body ∧ Faithful r.headers received) ↔
      SingleValued r.headers := by
  rw [← faithful_iff]
  constructor
  · intro h
    obtain ⟨status, received, body, hreply, hfaithful⟩ := h
    cases hreply
    exact hfaithful
  · intro h
    exact ⟨_, _, _, rfl, h⟩

theorem headersFaithful_iff (hplain : route.Plain) (attempt : Nat → Except SendError UpstreamResponse)
    (maxRetries : Nat) :
    HeadersFaithful (relay http attempt maxRetries route ctx req) req.headers ↔
      (route.Admits ctx req → SingleValued req.headers ∧
        ∀ r, (sendUpstream attempt req.method maxRetries 0).2 = .ok r → SingleValued r.headers) := by
  unfold relay
  by_cases hadmits : route.Admits ctx req
  · obtain ⟨f, hf, hmethod, hheaders⟩ := forwardTo_plain http hplain.request hadmits
    have hsent := sent_faithful hheaders (sendUpstream_sent attempt req.method maxRetries 0)
    rw [← hmethod] at hsent ⊢
    rw [hf, hplain.response]
    simp only [hadmits, true_imp_iff]
    generalize sendUpstream attempt f.method maxRetries 0 = out at hsent
    obtain ⟨attempts, outcome⟩ := out
    cases outcome with
    | error e =>
      constructor
      · intro h
        exact ⟨hsent.mp h.request, by simp⟩
      · intro h
        exact ⟨hsent.mpr h.1, by simp⟩
    | ok r =>
      constructor
      · intro h
        refine ⟨hsent.mp h.request, ?_⟩
        intro r' hr'
        cases hr'
        exact (respond_faithful r).mp (h.response r rfl)
      · intro h
        refine ⟨hsent.mpr h.1, ?_⟩
        intro r' hr'
        cases hr'
        exact (respond_faithful r).mpr (h.2 r rfl)
  · obtain ⟨refusal, hrefusal⟩ := forwardTo_refused http hadmits
    rw [hrefusal]
    exact ⟨fun _ h => absurd h hadmits, fun _ => ⟨by simp, by simp⟩⟩

end

/-! ## Two cookies -/

def shopRoute : ProxyRoute where
  name := "shop"
  pathPrefix := "/shop".toList
  upstream := "http://shop:8080".toList
  stripPrefix := false
  methods := []
  requireContext := []
  request := []
  response := []

def cartRequest : IncomingRequest :=
  ⟨"GET", "/shop/cart".toList, none, [("accept", utf8Bytes "text/html".toList)], .ok []⟩

def cartPage (headers : List (String × Bytes)) : UpstreamResponse := ⟨200, headers, utf8Bytes "<html>".toList⟩

def twoCookies : List (String × Bytes) :=
  [("set-cookie", utf8Bytes "session=1".toList), ("set-cookie", utf8Bytes "theme=dark".toList)]

/-- No transform reads a body or sets a header here. -/
def anyHttp : HttpCrate := ⟨fun _ => true, fun _ => true, fun _ => .error "expected value"⟩

theorem shopRoute_plain : shopRoute.Plain := ⟨rfl, rfl⟩

/-- The first cookie of two does not reach the caller. -/
theorem cookie_dropped :
    (∃ received, (relay anyHttp (fun _ => .ok (cartPage twoCookies)) 2 shopRoute [] cartRequest).reply =
        .streamed 200 received (utf8Bytes "<html>".toList) ∧
      received.lookup "set-cookie" = some (utf8Bytes "theme=dark".toList)) ∧
      ¬ HeadersFaithful (relay anyHttp (fun _ => .ok (cartPage twoCookies)) 2 shopRoute [] cartRequest)
        cartRequest.headers := by
  constructor
  · have hlast : (inboundHeaders twoCookies).lookup "set-cookie" = some (utf8Bytes "theme=dark".toList) := by
      rw [lookup_inboundHeaders]
      decide +kernel
    exact ⟨inboundHeaders twoCookies, rfl, hlast⟩
  · intro h
    have hone := (respond_faithful _).mp (h.response (cartPage twoCookies) rfl)
    exact absurd hone (by decide +kernel)

/-- One value for each name goes both ways. -/
theorem cart_faithful :
    HeadersFaithful
      (relay anyHttp (fun _ => .ok (cartPage [("set-cookie", utf8Bytes "session=1".toList), ("vary", [42])])) 2
        shopRoute [] cartRequest) cartRequest.headers := by
  refine (headersFaithful_iff shopRoute_plain _ 2).mpr fun _ => ⟨by decide +kernel, ?_⟩
  intro r hr
  cases hr
  decide +kernel

end SynapseGateway
