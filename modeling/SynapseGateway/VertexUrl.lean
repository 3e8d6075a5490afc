import SynapseGateway.GeminiLane
import SynapseGateway.Lib.UrlPath

/-!
# The URLs Vertex is asked at

A client names a model and an action, and both become part of a URL. What they
may be is checked, so that neither can change the rest of it.
-/

namespace SynapseGateway

open Utf8 (Text)
open Url (Plain plain_of_all)

/-! ## The URL -/

def vertexEndpointBase (region : String) : Text :=
  if region = "global" then "https://aiplatform.googleapis.com".toList
  else if region = "us" ∨ region = "eu" then "https://aiplatform.".toList ++ region.toList ++ ".rep.googleapis.com".toList
  else "https://".toList ++ region.toList ++ "-aiplatform.googleapis.com".toList

structure VertexNativeProvider where
  project : String
  region : String
  endpointOverride : Option String := none

namespace VertexNativeProvider

variable (p : VertexNativeProvider)

def endpointFor (region : String) : Text := (p.endpointOverride.map String.toList).getD (vertexEndpointBase region)

def regionOf (call : VertexCall) : String := call.region.getD p.region

/-- The URL of `passthrough_request`. -/
def passthroughUrl (call : VertexCall) : Text :=
  p.endpointFor (p.regionOf call) ++ "/v1/projects/".toList ++ p.project.toList ++ "/locations/".toList ++
    (p.regionOf call).toList ++ "/publishers/google/models/".toList ++ call.model.toList ++ ":".toList ++
    call.action.toList ++ (if call.altSse then "?alt=sse".toList else [])

/-- The segments behind the endpoint's own. -/
def segments (call : VertexCall) : List Text :=
  ["v1".toList, "projects".toList, p.project.toList, "locations".toList, (p.regionOf call).toList, "publishers".toList,
    "google".toList, "models".toList, call.model.toList ++ ":".toList ++ call.action.toList]

/-- What the operator writes is delimited by nothing of its own. -/
structure Configured (t : RouteTable) : Prop where
  project : Plain p.project.toList
  region : Plain p.region.toList
  endpoint : ∀ e, p.endpointOverride = some e → ∃ u : Url.Base, u.text = e.toList
  leg : ∀ r legs, t.legs r = some legs → ∀ l ∈ legs, l.isVertex = true →
    Plain l.model.toList ∧ ∀ region, l.region = some region → Plain region.toList

end VertexNativeProvider

def modelChar (c : Char) : Bool := isAsciiAlphanumeric c || c == '.' || c == '_' || c == '-'

/-- The model of a call: the client's own, or one of a Vertex leg. -/
def ModelFrom (t : RouteTable) (req : GeminiRequest) (call : VertexCall) : Prop :=
  (call.region = none ∧ call.model.toList.all modelChar = true ∧
    rsplitOnce ':' req.modelAction = some (call.model.toList, call.action.toList)) ∨
  ∃ r legs, t.legs r = some legs ∧ ∃ l ∈ legs, l.isVertex = true ∧ l.model = call.model ∧ l.region = call.region

/-- What a URL is read as. -/
structure Addresses (p : VertexNativeProvider) (t : RouteTable) (req : GeminiRequest) (call : VertexCall) : Prop where
  scheme : Url.scheme (p.passthroughUrl call) = Url.scheme (p.endpointFor (p.regionOf call))
  authority : Url.authority (p.passthroughUrl call) = Url.authority (p.endpointFor (p.regionOf call))
  path : ∃ base path, Url.path (p.endpointFor (p.regionOf call)) = some base ∧
    Url.path (p.passthroughUrl call) = some path ∧ path.splitOn '/' = base.splitOn '/' ++ p.segments call
  query : Url.query (p.passthroughUrl call) = if call.altSse then some "alt=sse".toList else none
  model : ModelFrom t req call
  named : ∃ model, rsplitOnce ':' req.modelAction = some (model, call.action.toList)
  action : call.action.toList ≠ [] ∧ call.action.toList.all isAsciiAlphabetic = true
  streamed : call.altSse = true → call.action = "streamGenerateContent"

/-! ## Reading it -/

section
variable {p : VertexNativeProvider} {t : RouteTable} {call : VertexCall}

theorem base_of_region {region : String} (h : Plain region.toList) :
    ∃ u : Url.Base, u.text = vertexEndpointBase region := by
  have base : ∀ host : Text, host ≠ [] → Plain host → ∃ u : Url.Base, u.text = "https".toList ++ "://".toList ++ host := by
    intro host hne hplain
    refine ⟨⟨⟨"https".toList, host, [], by decide, hne, hplain, .inl rfl⟩, fun c hc => (List.not_mem_nil hc).elim⟩, ?_⟩
    exact List.append_nil _
  unfold vertexEndpointBase
  split
  · exact base "aiplatform.googleapis.com".toList (by decide) (plain_of_all rfl)
  · split
    · have hhost := base ("aiplatform.".toList ++ region.toList ++ ".rep.googleapis.com".toList) (by simp)
        (Plain.append (Plain.append (plain_of_all rfl) h) (plain_of_all rfl))
      obtain ⟨u, hu⟩ := hhost
      exact ⟨u, by rw [hu]; simp⟩
    · have hhost := base (region.toList ++ "-aiplatform.googleapis.com".toList) (by simp)
        (Plain.append h (plain_of_all rfl))
      obtain ⟨u, hu⟩ := hhost
      exact ⟨u, by rw [hu]; simp⟩

theorem plain_modelChar {s : Text} (h : s.all modelChar = true) : Plain s := by
  intro c hc
  have hm := List.all_eq_true.mp h c hc
  cases hd : Url.delimiter c with
  | false => rfl
  | true =>
    simp only [Url.delimiter, Bool.or_eq_true, beq_iff_eq] at hd
    rcases hd with (rfl | rfl) | rfl <;> cases hm

theorem plain_alphabetic {s : Text} (h : s.all isAsciiAlphabetic = true) : Plain s := by
  apply plain_modelChar
  rw [List.all_eq_true] at h ⊢
  intro c hc
  simp [modelChar, isAsciiAlphanumeric, h c hc]

theorem regionOf_plain (hp : p.Configured t) {req : GeminiRequest} (hm : ModelFrom t req call) :
    Plain (p.regionOf call).toList := by
  unfold VertexNativeProvider.regionOf
  obtain ⟨hnone, -, -⟩ | ⟨r, legs, hlegs, l, hl, hv, -, hregion⟩ := hm
  · rw [hnone]
    exact hp.region
  · rw [← hregion]
    cases hr : l.region with
    | none => exact hp.region
    | some region => exact (hp.leg r legs hlegs l hl hv).2 region hr

theorem model_plain (hp : p.Configured t) {req : GeminiRequest} (hm : ModelFrom t req call) : Plain call.model.toList := by
  obtain ⟨-, hmodel, -⟩ | ⟨r, legs, hlegs, l, hl, hv, hmodel, -⟩ := hm
  · exact plain_modelChar hmodel
  · rw [← hmodel]
    exact (hp.leg r legs hlegs l hl hv).1

theorem segments_plain (hp : p.Configured t) {req : GeminiRequest} (hm : ModelFrom t req call)
    (ha : call.action.toList.all isAsciiAlphabetic = true) : ∀ s ∈ p.segments call, Plain s := by
  have hlast : Plain (call.model.toList ++ ":".toList ++ call.action.toList) :=
    Plain.append (Plain.append (model_plain hp hm) (plain_of_all rfl)) (plain_alphabetic ha)
  unfold VertexNativeProvider.segments
  simp only [List.forall_mem_cons]
  refine ⟨?_, ?_, hp.project, ?_, regionOf_plain hp hm, ?_, ?_, ?_, hlast, fun s hs => (List.not_mem_nil hs).elim⟩ <;>
    exact plain_of_all rfl

theorem endpoint_base (hp : p.Configured t) {req : GeminiRequest} (hm : ModelFrom t req call) :
    ∃ u : Url.Base, u.text = p.endpointFor (p.regionOf call) := by
  unfold VertexNativeProvider.endpointFor
  cases he : p.endpointOverride with
  | none => exact base_of_region (regionOf_plain hp hm)
  | some e => exact hp.endpoint e he

theorem passthroughUrl_below : p.passthroughUrl call = p.endpointFor (p.regionOf call) ++
    (Url.below (p.segments call) ++ if call.altSse then "?alt=sse".toList else []) := by
  have hprojects : "/v1/projects/".toList = ('/' :: "v1".toList) ++ ('/' :: "projects".toList) ++ ['/'] := rfl
  have hlocations : "/locations/".toList = ('/' :: "locations".toList) ++ ['/'] := rfl
  have hmodels : "/publishers/google/models/".toList =
      ('/' :: "publishers".toList) ++ ('/' :: "google".toList) ++ ('/' :: "models".toList) ++ ['/'] := rfl
  unfold VertexNativeProvider.passthroughUrl VertexNativeProvider.segments
  rw [hprojects, hlocations, hmodels]
  simp only [Url.below, List.append_assoc, List.cons_append, List.nil_append, List.append_nil]

theorem addresses {req : GeminiRequest} (hp : p.Configured t) (hm : ModelFrom t req call)
    (hn : ∃ model, rsplitOnce ':' req.modelAction = some (model, call.action.toList))
    (ha : call.action.toList ≠ [] ∧ call.action.toList.all isAsciiAlphabetic = true)
    (hs : call.altSse = true → call.action = "streamGenerateContent") : Addresses p t req call := by
  obtain ⟨u, hu⟩ := endpoint_base hp hm
  have hsegs := segments_plain hp hm ha.2
  have hends : Url.Ends (if call.altSse then "?alt=sse".toList else []) := by
    cases call.altSse with
    | true =>
      intro c hc
      cases hc
      rfl
    | false => exact fun c hc => by cases hc
  refine ⟨?_, ?_, ?_, ?_, hm, hn, ha, hs⟩
  · rw [passthroughUrl_below, ← hu, Url.scheme_below, u.scheme_text]
  · rw [passthroughUrl_below, ← hu, Url.authority_below u hends, u.authority_text]
  · rw [passthroughUrl_below, ← hu, Url.path_below u hsegs hends, u.path_text]
    exact ⟨_, _, rfl, rfl, Url.splitOn_below hsegs _⟩
  · rw [passthroughUrl_below, ← hu, Url.query_below u hsegs hends]
    cases call.altSse <;> rfl

end

/-! ## The calls of a request -/

section
variable {p : VertexNativeProvider} {t : RouteTable} {g : GeminiGateway} {req : GeminiRequest} {a : AdmittedGemini}

/-- What is addressed was checked: the model and the action are the client's, and the legs those of the model. -/
theorem addressGemini_checked (h : g.addressGemini req = .ok a) :
    rsplitOnce ':' req.modelAction = some (a.model.toList, a.action.toList) ∧ a.model.toList.all modelChar = true ∧
      (a.action.toList ≠ [] ∧ a.action.toList.all isAsciiAlphabetic = true) ∧
      a.chain = g.routes.vertexFallbackChain a.model ∧ a.first ∈ a.chain.legs := by
  unfold GeminiGateway.addressGemini GeminiGateway.admitGemini at h
  split at h
  · split at h
    · cases h
    · rename_i modelText actionText hsplit
      obtain ⟨u, hcheck, h⟩ := Fallible.of_bind_ok h
      unfold checkModelAction at hcheck
      simp only at hcheck
      split at hcheck
      · rename_i hok
        simp only [Bool.and_eq_true, Bool.not_eq_true', List.isEmpty_eq_false_iff] at hok
        have hmodel : modelText.all modelChar = true := hok.1.2
        simp only at h
        split at h
        · cases h
        · split at h
          · cases h
          · rename_i first hfirst
            have hmem := List.mem_of_head? hfirst
            split at h
            all_goals
              cases h
              refine ⟨?_, ?_, ?_, rfl, hmem⟩
              · simpa using hsplit
              · rw [String.toList_ofList]
                exact hmodel
              · rw [String.toList_ofList]
                exact hok.2
      · cases hcheck
  · cases h

theorem chain_legs {model : String} {l : ChainLeg} (h : l ∈ (t.vertexFallbackChain model).legs) :
    (l.region = none ∧ l.model = model) ∨ ∃ r legs, t.legs r = some legs ∧ l ∈ legs ∧ l.isVertex = true := by
  unfold RouteTable.vertexFallbackChain at h
  split at h
  · rename_i legs hlegs
    have hlookup : t.routes.lookup model = some legs := by
      split at hlegs
      · cases hlegs
      · exact hlegs
    exact .inr ⟨model, legs, hlookup, (List.takeWhile_prefix _).subset h, List.mem_takeWhile_imp h⟩
  · simp only at h
    split at h
    · rename_i r start _
      cases hl : t.routes.lookup r with
      | none =>
        rw [hl] at h
        simp at h
      | some legs =>
        rw [hl] at h
        exact .inr ⟨r, legs, hl, List.mem_of_mem_drop ((List.takeWhile_prefix _).subset h), List.mem_takeWhile_imp h⟩
    · obtain rfl := List.mem_singleton.mp h
      exact .inl ⟨rfl, rfl⟩

theorem mem_attempted {c : GeminiCall} {send : Nat → VertexCall → Except GatewayError VertexReply} {i : Nat}
    {legs : List ChainLeg} {leg : Nat × ChainLeg} (h : leg ∈ c.attempted send i legs) : leg.2 ∈ legs := by
  induction legs generalizing i with
  | nil => cases h
  | cons l legs ih =>
    rw [GeminiCall.attempted] at h
    rcases List.mem_cons.mp h with rfl | h
    · exact List.mem_cons_self
    · split at h
      · exact List.mem_cons_of_mem _ (ih h)
      · cases h

/-- A call to a leg of an addressed request. -/
theorem leg_addresses (hp : p.Configured g.routes) (h : g.addressGemini req = .ok a) {l : ChainLeg} (hl : l ∈ a.chain.legs)
    {call : VertexCall} (hmodel : call.model = l.model) (hregion : call.region = l.region) (haction : call.action = a.action)
    (hstreamed : call.altSse = true → isStreaming a.action = true) : Addresses p g.routes req call := by
  obtain ⟨hsplit, hchars, halpha, hchain, -⟩ := addressGemini_checked h
  rw [hchain] at hl
  have hfrom : ModelFrom g.routes req call := by
    obtain ⟨hnone, hname⟩ | ⟨r, legs, hlegs, hmem, hv⟩ := chain_legs hl
    · refine .inl ⟨hregion.trans hnone, ?_, ?_⟩
      · rw [hmodel, hname]
        exact hchars
      · rw [hmodel, hname, haction]
        exact hsplit
    · exact .inr ⟨r, legs, hlegs, l, hmem, hv, hmodel.symm, hregion.symm⟩
  refine addresses hp hfrom ⟨_, haction ▸ hsplit⟩ ?_ fun hs => ?_
  · rw [haction]
    exact halpha
  · rw [haction]
    exact beq_iff_eq.mp (hstreamed hs)

/-- However a client names a model and an action, every call of its request is
addressed below the endpoint's own path, to a model of the routes or to the one
it named, and to the action it named. -/
theorem vertex_urls_addressed (serde : SerdeJson) (wire : VertexTransport)
    (uuid : Nat → String) (llm : LlmGuard) (eng : GuardEngine) (ctx : RequestCtx) (hp : p.Configured g.routes)
    (req : GeminiRequest) : ∀ call ∈ (g.geminiLane serde wire uuid llm eng ctx req).sends, Addresses p g.routes req call := by
  intro call hcall
  cases h : g.addressGemini req with
  | error e =>
    have hx : g.geminiLane serde wire uuid llm eng ctx req = ⟨.error e, []⟩ := by
      unfold GeminiGateway.geminiLane
      rw [h]
      rfl
    rw [hx] at hcall
    cases hcall
  | ok a =>
    obtain ⟨e, hs, hx⟩ | ⟨s, hs, hx⟩ := @geminiLane_cases serde wire uuid llm eng g ctx req a h
    · have hnone : LaneM.sends (⟨.error e, (g.screenLane uuid llm eng ctx a).events⟩ : LaneM VertexCall PassthroughOut) = [] :=
        LaneEvent.filterMap_guard (fun _ hev => hev.sent) screenLane_guard
      rw [hx, hnone] at hcall
      cases hcall
    · rw [hx, sends_append screenLane_guard] at hcall
      obtain ⟨hmetered, honce⟩ := @calls_asks serde wire uuid g ctx { a with body := s.1 } req.query
      cases hm : isMetered a.action with
      | true =>
        rw [(hmetered hm).1] at hcall
        obtain ⟨leg, hleg, hposted⟩ := List.mem_flatMap.mp hcall
        obtain rfl := mem_posted hposted
        refine leg_addresses hp h (mem_attempted hleg) rfl rfl rfl fun hsse => ?_
        exact (Bool.and_eq_true _ _ ▸ hsse : _ ∧ _).2
      | false =>
        rw [(honce hm).1] at hcall
        obtain rfl := mem_posted hcall
        exact leg_addresses hp h (addressGemini_checked h).2.2.2.2 rfl rfl rfl fun hsse => by cases hsse

def flashProvider : VertexNativeProvider := { project := "acme", region := "global" }

theorem flash_configured : flashProvider.Configured flashGateway.routes where
  project := plain_of_all rfl
  region := plain_of_all rfl
  endpoint e he := by cases he
  leg r legs hlegs l hl _ := by
    have hmem : (r, legs) ∈ flashGateway.routes.routes := Assoc.mem_of_lookup hlegs
    obtain ⟨-, rfl⟩ := Prod.mk.inj (List.mem_singleton.mp hmem)
    obtain rfl := List.mem_singleton.mp hl
    exact ⟨plain_of_all rfl, fun region hregion => by cases hregion⟩

theorem flash_url_addressed : ∃ calls, calls = (flashGateway.geminiLane (tableSerde []) flashWire (fun _ => "req-1")
      substringGuard ⟨[]⟩ {} (streamRequest (some "alt=sse".toList))).sends ∧
    (∀ call ∈ calls, Addresses flashProvider flashGateway.routes (streamRequest (some "alt=sse".toList)) call) ∧
    calls.map (fun call => (call.model, call.action, call.altSse)) = [("gemini-2.5-flash", "streamGenerateContent", true)] :=
  ⟨_, rfl, vertex_urls_addressed _ _ _ _ _ _ flash_configured _, rfl⟩

end

end SynapseGateway
