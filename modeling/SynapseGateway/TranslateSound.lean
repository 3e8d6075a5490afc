import Mathlib.Data.List.Forall2
import SynapseGateway.LeavesSound

/-!
# What the translators keep of a conversation

Each message is sent as one upstream message in its place. Text beside the tool
calls of an assistant message is dropped, and so are the tool calls of any other.
The native lane drops arguments that are no JSON.
-/

namespace SynapseGateway

open Utf8 (Text)

/-! ## What a message says -/

/-- The text of a message, where its content is a string or has text parts. -/
def Message.said (m : Message) : List Text :=
  (match m.content with
  | .string s => [s]
  | .array parts => parts.filterMap typedText
  | _ => []).filter (!·.isEmpty)

def functionName (tc : Json) : Option Text := ((tc.get? "function").bind (·.get? "name")).bind Json.asStr

def rawArguments (tc : Json) : Option Text := ((tc.get? "function").bind (·.get? "arguments")).bind Json.asStr

/-- A tool call with an id, a function name and an arguments string. -/
def isComplete (tc : Json) : Bool :=
  ((tc.get? "id").bind Json.asStr).isSome && (functionName tc).isSome && (rawArguments tc).isSome

/-- The texts are pieces of another, in this order. -/
def InOrder (texts : List Text) (s : Text) : Prop := ∃ pieces : List Text, pieces.flatten = s ∧ texts.Sublist pieces

/-- Texts go upstream as they are, or quoted in the JSON text of the content. -/
def CarriesTexts (said sent : List Text) : Prop := said.Sublist sent ∨ ∃ s ∈ sent, InOrder (said.map Json.quoted) s

section
variable (parse : Text → Except String Json)

/-- The value an arguments string can be read back from: its JSON, or the string itself. -/
def argumentsOf (raw : Text) : Json :=
  match parse raw with
  | .ok args => args
  | .error _ => .string raw

/-- A call that is sent, by name and arguments, for one of the message. -/
structure StandsFor (tc : Json) (call : Text × Json) : Prop where
  name : functionName tc = some call.1
  arguments : isComplete tc = true → (rawArguments tc).map (argumentsOf parse) = some call.2

/-- The calls that are sent stand for calls of the message, in order, all complete ones among them. -/
def CarriesCalls (calls : List Json) (sent : List (Text × Json)) : Prop :=
  ∃ kept, kept.Sublist calls ∧ (calls.filter isComplete).Sublist kept ∧ List.Forall₂ (StandsFor parse) kept sent

structure Carries (m : Message) (texts : List Text) (calls : List (Text × Json)) : Prop where
  texts : CarriesTexts m.said texts
  calls : CarriesCalls parse (m.toolCalls.getD []) calls

end

/-- The calls a genai message carries to the model. -/
def MessageContent.calls : MessageContent → List (Text × Json)
  | .toolCalls calls => calls.map fun call => (call.fnName, call.fnArguments)
  | _ => []

def vertexCall (part : Json) : Option (Text × Json) := do
  let f ← part.get? "functionCall"
  let name ← (f.key "name").asStr
  some (name, f.key "args")

def vertexCalls (content : Json) : List (Text × Json) :=
  ((content.key "parts").asArray.getD []).filterMap vertexCall

/-- On both lanes every message is carried by the upstream message in its place. -/
structure LosesNothing (parse : Text → Except String Json) (req : ChatRequest) (ext : VertexExt) : Prop where
  standard : ∀ (i : Nat) m, req.messages[i]? = some m →
    ∃ c : ChatMessage, (toGenaiRequest parse req).messages[i]? = some c ∧ Carries parse m c.content.texts c.content.calls
  native : ∀ (i : Nat) m, req.messages[i]? = some m →
    ∃ c, (contentsOf (buildPayload parse req ext))[i]? = some c ∧ Carries parse m (vertexTexts c) (vertexCalls c)

/-- An assistant message has text or tool calls but not both, and no other has a complete call. -/
structure Message.OneKind (m : Message) : Prop where
  text : m.role = "assistant" → m.toolCalls.isSome = true → m.said = []
  role : ∀ tc ∈ m.toolCalls.getD [], isComplete tc = true → m.role = "assistant"

/-- The arguments of its complete calls are JSON, besides. -/
structure Message.Sayable (parse : Text → Except String Json) (m : Message) : Prop extends m.OneKind where
  arguments : ∀ tc ∈ m.toolCalls.getD [], isComplete tc = true →
    ∀ raw, rawArguments tc = some raw → ∃ args, parse raw = .ok args

/-! ## Texts in order -/

theorem InOrder.append {xs ys : List Text} {s t : Text} (hx : InOrder xs s) (hy : InOrder ys t) :
    InOrder (xs ++ ys) (s ++ t) := by
  obtain ⟨ps, rfl, hps⟩ := hx
  obtain ⟨qs, rfl, hqs⟩ := hy
  exact ⟨ps ++ qs, List.flatten_append, hps.append hqs⟩

theorem inOrder_nil (s : Text) : InOrder [] s := ⟨[s], List.flatten_singleton, List.nil_sublist _⟩

theorem inOrder_within {x s : Text} (h : x <:+: s) : InOrder [x] s := by
  obtain ⟨a, b, rfl⟩ := h
  exact ⟨[a, x, b], by simp, by simp⟩

theorem typedText_within {part : Json} {t : Text} (h : typedText part = some t) : Json.quoted t <:+: part.toText := by
  have hleaf := leafOf_typedText h
  unfold leafOf at hleaf
  cases part with
  | object members =>
    cases hv : members.lookup "text" with
    | none => simp [Json.get?, hv] at hleaf
    | some v =>
      simp only [Json.get?, hv, Option.bind_some] at hleaf
      cases v with
      | string s =>
        cases hleaf
        exact (lookup_within hv).trans ⟨['\x7b'], ['\x7d'], rfl⟩
      | _ => cases hleaf
  | _ => cases hleaf

/-- The texts of the parts of an array, those that are not empty. -/
def partTexts (parts : List Json) : List Text := (parts.filterMap typedText).filter (!·.isEmpty)

theorem inOrder_part (part : Json) : InOrder ((partTexts [part]).map Json.quoted) part.toText := by
  unfold partTexts
  rw [List.filterMap_cons]
  cases h : typedText part with
  | none => exact inOrder_nil _
  | some t =>
    by_cases ht : t = []
    · rw [ht]
      exact inOrder_nil _
    · have hkept : [t].filter (!·.isEmpty) = [t] := by simp [ht]
      simp only [List.filterMap_nil]
      rw [hkept]
      exact inOrder_within (typedText_within h)

theorem inOrder_elements : ∀ parts : List Json, InOrder ((partTexts parts).map Json.quoted) (Json.elements parts)
  | [] => inOrder_nil _
  | [part] => inOrder_part part
  | part :: part' :: parts => by
    have hsplit : partTexts (part :: part' :: parts) = partTexts [part] ++ partTexts (part' :: parts) := by
      show partTexts ([part] ++ part' :: parts) = _
      unfold partTexts
      rw [List.filterMap_append, List.filter_append]
    rw [hsplit, List.map_append]
    have hcomma := (inOrder_nil [',']).append (inOrder_elements (part' :: parts))
    have h := (inOrder_part part).append hcomma
    rw [List.nil_append, ← List.append_assoc] at h
    exact h

/-! ## The texts of a message -/

section
variable {parse : Text → Except String Json} {m : Message}

theorem carriesTexts_nil {said : List Text} : CarriesTexts said [] ↔ said = [] := by
  constructor
  · intro h
    obtain h | ⟨s, hs, -⟩ := h
    · exact List.sublist_nil.mp h
    · cases hs
  · rintro rfl
    exact .inl (List.nil_sublist _)

theorem carriesTexts_texts (m : Message) : CarriesTexts m.said m.texts := by
  unfold Message.said Message.texts
  by_cases htool : m.role = "tool"
  · rw [if_pos htool]
    cases m.content with
    | string s => exact .inl List.filter_sublist
    | array parts =>
      refine .inr ⟨_, List.mem_singleton_self _, ?_⟩
      have h := (inOrder_nil ['[']).append ((inOrder_elements parts).append (inOrder_nil [']']))
      rw [List.nil_append, List.append_nil, ← List.append_assoc] at h
      exact h
    | null | bool | number | object => exact .inl (List.nil_sublist _)
  · rw [if_neg htool]
    cases m.content with
    | string s => exact .inl List.filter_sublist
    | array parts => exact .inl List.filter_sublist
    | null | bool | number | object => exact .inl (List.nil_sublist _)

end

/-! ## The calls of a message -/

theorem forall₂_filterMap {R : α → β → Prop} {f : α → Option β} (xs : List α) :
    List.Forall₂ R (xs.filter fun a => (f a).isSome) (xs.filterMap f) ↔ ∀ a ∈ xs, ∀ b, f a = some b → R a b := by
  induction xs with
  | nil => simp
  | cons a xs ih =>
    cases h : f a with
    | none => simp [h, ih]
    | some b => simp [h, ih]

section
variable {parse : Text → Except String Json} {m : Message}

theorem isComplete_name {tc : Json} (h : isComplete tc = true) :
    (functionName tc).isSome = true ∧ ∃ raw, rawArguments tc = some raw := by
  simp only [isComplete, Bool.and_eq_true] at h
  exact ⟨h.1.2, Option.isSome_iff_exists.mp h.2⟩

theorem carriesCalls_filterMap {f : Json → Option (Text × Json)} {calls : List Json}
    (hkeeps : ∀ tc, isComplete tc = true → (f tc).isSome = true)
    (hstands : ∀ tc ∈ calls, ∀ call, f tc = some call → StandsFor parse tc call) :
    CarriesCalls parse calls (calls.filterMap f) :=
  ⟨_, List.filter_sublist, List.monotone_filter_right calls hkeeps, (forall₂_filterMap calls).mpr hstands⟩

theorem carriesCalls_named {f : Json → Option (Text × Json)} {calls : List Json}
    (hname : ∀ tc, (f tc).isSome = (functionName tc).isSome) (h : CarriesCalls parse calls (calls.filterMap f)) :
    ∀ tc ∈ calls, ∀ call, f tc = some call → StandsFor parse tc call := by
  obtain ⟨kept, hsub, -, hstands⟩ := h
  have hnamed : ∀ tc ∈ kept, (f tc).isSome = true := by
    have hall : ∀ {kept : List Json} {sent : List (Text × Json)}, List.Forall₂ (StandsFor parse) kept sent →
        ∀ tc ∈ kept, (f tc).isSome = true := by
      intro kept sent h
      induction h with
      | nil => simp
      | cons h _ ih => exact List.forall_mem_cons.mpr ⟨by rw [hname, h.name]; rfl, ih⟩
    exact hall hstands
  have hlen : kept.length = (calls.filter fun tc => (f tc).isSome).length := by
    rw [hstands.length_eq, List.length_filterMap_eq_countP, List.countP_eq_length_filter]
  have hkept : kept = calls.filter fun tc => (f tc).isSome := by
    have hfilter := hsub.filter fun tc => (f tc).isSome
    rw [List.filter_eq_self.mpr hnamed] at hfilter
    exact hfilter.eq_of_length hlen
  rw [hkept] at hstands
  exact (forall₂_filterMap calls).mp hstands

theorem carriesCalls_nil {calls : List Json} :
    CarriesCalls parse calls [] ↔ ∀ tc ∈ calls, isComplete tc = false := by
  constructor
  · intro h
    obtain ⟨kept, -, hkeeps, hstands⟩ := h
    cases hstands
    intro tc htc
    have hnone := List.filter_eq_nil_iff.mp (List.sublist_nil.mp hkeeps) tc htc
    simpa using hnone
  · intro h
    refine ⟨[], List.nil_sublist _, ?_, .nil⟩
    rw [List.filter_eq_nil_iff.mpr (by simpa using h)]

/-! ## The standard lane -/

/-- The call that goes upstream for one of the message. -/
def genaiCall (parse : Text → Except String Json) (tc : Json) : Option (Text × Json) :=
  (openaiToolCallToGenai parse tc).map fun call => (call.fnName, call.fnArguments)

theorem genaiCall_eq (tc : Json) :
    genaiCall parse tc = ((tc.get? "id").bind Json.asStr).bind fun _ => (functionName tc).map fun name =>
      (name, argumentsOf parse ((rawArguments tc).getD "\x7b\x7d".toList)) := by
  unfold genaiCall openaiToolCallToGenai functionName rawArguments argumentsOf
  cases (tc.get? "id").bind Json.asStr with
  | none => rfl
  | some callId =>
    cases tc.get? "function" with
    | none => rfl
    | some f =>
      simp only [Option.bind_eq_bind, Option.bind_some]
      cases (f.get? "name").bind Json.asStr <;> rfl

theorem genaiCall_complete {tc : Json} (h : isComplete tc = true) : (genaiCall parse tc).isSome = true := by
  simp only [isComplete, Bool.and_eq_true] at h
  obtain ⟨callId, hid⟩ := Option.isSome_iff_exists.mp h.1.1
  rw [genaiCall_eq, hid, Option.bind_some, Option.isSome_map]
  exact h.1.2

theorem genaiCall_standsFor {tc : Json} {call : Text × Json} (h : genaiCall parse tc = some call) :
    StandsFor parse tc call := by
  rw [genaiCall_eq] at h
  obtain ⟨callId, -, h⟩ := Option.bind_eq_some_iff.mp h
  obtain ⟨name, hname, rfl⟩ := Option.map_eq_some_iff.mp h
  refine ⟨hname, ?_⟩
  intro hcomplete
  obtain ⟨-, raw, hraw⟩ := isComplete_name hcomplete
  rw [hraw]
  rfl

theorem genai_calls (hplain : m.role = "assistant" → m.toolCalls = none) :
    (toGenaiMessage parse m).content.calls = [] := by
  unfold toGenaiMessage
  split
  · rename_i hrole hcalls
    rw [hplain hrole] at hcalls
    cases hcalls
  · rfl
  · rfl

theorem genai_toolCalls (parse : Text → Except String Json) (hrole : m.role = "assistant") {calls : List Json} (hcalls : m.toolCalls = some calls) :
    (toGenaiMessage parse m).content.texts = [] ∧
      (toGenaiMessage parse m).content.calls = calls.filterMap (genaiCall parse) := by
  unfold toGenaiMessage
  rw [hrole, hcalls]
  exact ⟨rfl, List.map_filterMap⟩

/-- A message sent as its texts is carried if it has no complete calls. -/
theorem carries_texts :
    Carries parse m m.texts [] ↔ ∀ tc ∈ m.toolCalls.getD [], isComplete tc = false :=
  ⟨fun h => carriesCalls_nil.mp h.calls, fun h => ⟨carriesTexts_texts m, carriesCalls_nil.mpr h⟩⟩

theorem oneKind_plain (hplain : m.role = "assistant" → m.toolCalls = none) :
    m.OneKind ↔ ∀ tc ∈ m.toolCalls.getD [], isComplete tc = false := by
  constructor
  · intro h tc htc
    by_contra hcomplete
    have hrole := h.role tc htc (by simpa using hcomplete)
    rw [hplain hrole] at htc
    cases htc
  · intro h
    refine ⟨?_, ?_⟩
    · intro hrole hcalls
      rw [hplain hrole] at hcalls
      cases hcalls
    · intro tc htc hcomplete
      rw [h tc htc] at hcomplete
      cases hcomplete

theorem genai_carries_iff :
    Carries parse m (toGenaiMessage parse m).content.texts (toGenaiMessage parse m).content.calls ↔ m.OneKind := by
  by_cases hplain : m.role = "assistant" → m.toolCalls = none
  · rw [genai_texts hplain, genai_calls hplain, carries_texts, oneKind_plain hplain]
  · obtain ⟨hrole, hsome⟩ := Classical.not_imp.mp hplain
    obtain ⟨calls, hcalls⟩ := Option.ne_none_iff_exists'.mp hsome
    obtain ⟨htexts, hsent⟩ := genai_toolCalls parse hrole hcalls
    rw [htexts, hsent]
    constructor
    · intro h
      exact ⟨fun _ _ => carriesTexts_nil.mp h.texts, fun _ _ _ => hrole⟩
    · intro h
      refine ⟨carriesTexts_nil.mpr (h.text hrole (by rw [hcalls]; rfl)), ?_⟩
      rw [hcalls]
      exact carriesCalls_filterMap (fun tc => genaiCall_complete) fun tc _ call => genaiCall_standsFor

/-! ## The native lane -/

def nativeCall (parse : Text → Except String Json) (tc : Json) : Option (Text × Json) :=
  (functionCallPart parse tc).bind vertexCall

theorem nativeCall_eq (tc : Json) :
    nativeCall parse tc = (functionName tc).map fun name =>
      (name, match parse ((rawArguments tc).getD "\x7b\x7d".toList) with
        | .ok args => args
        | .error _ => .object []) := by
  unfold nativeCall functionCallPart functionName rawArguments
  cases tc.get? "function" with
  | none => rfl
  | some f =>
    simp only [Option.bind_eq_bind, Option.bind_some]
    cases (f.get? "name").bind Json.asStr <;> rfl

/-- A complete call stands upstream for what it is exactly when its arguments are JSON. -/
theorem nativeCall_standsFor {tc : Json} {call : Text × Json} (h : nativeCall parse tc = some call) :
    StandsFor parse tc call ↔
      (isComplete tc = true → ∀ raw, rawArguments tc = some raw → ∃ args, parse raw = .ok args) := by
  rw [nativeCall_eq] at h
  obtain ⟨name, hname, rfl⟩ := Option.map_eq_some_iff.mp h
  constructor
  · intro hstands hcomplete raw hraw
    have hargs := hstands.arguments hcomplete
    rw [hraw, Option.map_some, Option.getD_some, Option.some.injEq, argumentsOf] at hargs
    cases hparse : parse raw with
    | ok args => exact ⟨args, rfl⟩
    | error e =>
      rw [hparse] at hargs
      cases hargs
  · intro hparses
    refine ⟨hname, ?_⟩
    intro hcomplete
    obtain ⟨-, raw, hraw⟩ := isComplete_name hcomplete
    obtain ⟨args, hargs⟩ := hparses hcomplete raw hraw
    rw [hraw, Option.map_some, Option.getD_some, argumentsOf, hargs]

theorem partToVertex_call (part : Json) : (partToVertex part).bind vertexCall = none := by
  unfold partToVertex
  cases (part.get? "type").bind Json.asStr with
  | none => rfl
  | some ty =>
    simp only [Option.bind_eq_bind, Option.bind_some]
    by_cases htext : ty = "text".toList
    · rw [if_pos htext]
      cases (part.key "text").asStr <;> rfl
    · rw [if_neg htext]
      cases mediaOf ty part <;> rfl

theorem functionCallPart_text (parse : Text → Except String Json) (tc : Json) :
    (functionCallPart parse tc).bind vertexText = none := by
  unfold functionCallPart
  cases tc.get? "function" with
  | none => rfl
  | some f =>
    simp only [Option.bind_eq_bind, Option.bind_some]
    cases (f.get? "name").bind Json.asStr <;> rfl

theorem native_calls (hplain : m.role = "assistant" → m.toolCalls = none) :
    vertexCalls (toVertexContent parse m) = [] := by
  unfold toVertexContent
  split
  · rename_i hrole hcalls
    rw [hplain hrole] at hcalls
    cases hcalls
  · rfl
  · show (contentToVertexParts m.content).filterMap vertexCall = []
    cases m.content with
    | array parts =>
      show (parts.filterMap partToVertex).filterMap vertexCall = []
      rw [List.filterMap_filterMap]
      exact List.filterMap_eq_nil_iff.mpr fun part _ => partToVertex_call part
    | null | bool | number | string | object => rfl

theorem native_toolCalls (parse : Text → Except String Json) (hrole : m.role = "assistant") {calls : List Json}
    (hcalls : m.toolCalls = some calls) :
    vertexTexts (toVertexContent parse m) = [] ∧
      vertexCalls (toVertexContent parse m) = calls.filterMap (nativeCall parse) := by
  unfold toVertexContent
  rw [hrole, hcalls]
  constructor
  · show (calls.filterMap (functionCallPart parse)).filterMap vertexText = []
    rw [List.filterMap_filterMap]
    exact List.filterMap_eq_nil_iff.mpr fun tc _ => functionCallPart_text parse tc
  · exact List.filterMap_filterMap

theorem native_carries_iff :
    Carries parse m (vertexTexts (toVertexContent parse m)) (vertexCalls (toVertexContent parse m)) ↔
      m.Sayable parse := by
  by_cases hplain : m.role = "assistant" → m.toolCalls = none
  · rw [vertex_texts hplain, native_calls hplain, carries_texts, ← oneKind_plain hplain]
    refine ⟨fun h => ⟨h, ?_⟩, fun h => h.toOneKind⟩
    intro tc htc hcomplete
    rw [(oneKind_plain hplain).mp h tc htc] at hcomplete
    cases hcomplete
  · obtain ⟨hrole, hsome⟩ := Classical.not_imp.mp hplain
    obtain ⟨calls, hcalls⟩ := Option.ne_none_iff_exists'.mp hsome
    obtain ⟨htexts, hsent⟩ := native_toolCalls parse hrole hcalls
    have hname : ∀ tc, (nativeCall parse tc).isSome = (functionName tc).isSome := by
      intro tc
      rw [nativeCall_eq, Option.isSome_map]
    rw [htexts, hsent]
    constructor
    · intro h
      refine ⟨⟨fun _ _ => carriesTexts_nil.mp h.texts, fun _ _ _ => hrole⟩, ?_⟩
      have hstands := h.calls
      rw [hcalls] at hstands
      intro tc htc hcomplete
      rw [hcalls] at htc
      obtain ⟨call, hcall⟩ := Option.isSome_iff_exists.mp ((hname tc).trans (isComplete_name hcomplete).1)
      exact (nativeCall_standsFor hcall).mp (carriesCalls_named hname hstands tc htc call hcall) hcomplete
    · intro h
      refine ⟨carriesTexts_nil.mpr (h.text hrole (by rw [hcalls]; rfl)), ?_⟩
      have hargs := h.arguments
      rw [hcalls] at hargs ⊢
      apply carriesCalls_filterMap
      · intro tc hcomplete
        rw [hname]
        exact (isComplete_name hcomplete).1
      · intro tc htc call hcall
        exact (nativeCall_standsFor hcall).mpr (hargs tc htc)

/-! ## Both lanes -/

theorem forall_sent_iff {P : Message → Prop} {R : Message → γ → Prop} {messages : List Message} {sent : List γ}
    (hsent : ∀ (i : Nat) m, messages[i]? = some m → ∃ c, sent[i]? = some c ∧ (R m c ↔ P m)) :
    (∀ (i : Nat) m, messages[i]? = some m → ∃ c, sent[i]? = some c ∧ R m c) ↔ ∀ m ∈ messages, P m := by
  constructor
  · intro h m hm
    obtain ⟨i, hi⟩ := List.mem_iff_getElem?.mp hm
    obtain ⟨c, hc, hiff⟩ := hsent i m hi
    obtain ⟨c', hc', hR⟩ := h i m hi
    cases hc.symm.trans hc'
    exact hiff.mp hR
  · intro h i m hi
    obtain ⟨c, hc, hiff⟩ := hsent i m hi
    exact ⟨c, hc, hiff.mpr (h m (List.mem_of_getElem? hi))⟩

theorem standard_sent (parse : Text → Except String Json) (req : ChatRequest) (i : Nat) (m : Message)
    (hm : req.messages[i]? = some m) :
    ∃ c : ChatMessage, (toGenaiRequest parse req).messages[i]? = some c ∧
      (Carries parse m c.content.texts c.content.calls ↔ m.OneKind) := by
  refine ⟨toGenaiMessage parse m, ?_, genai_carries_iff⟩
  show (req.messages.map (toGenaiMessage parse))[i]? = _
  rw [List.getElem?_map, hm]
  rfl

theorem native_sent (parse : Text → Except String Json) (req : ChatRequest) (ext : VertexExt) (i : Nat) (m : Message)
    (hm : req.messages[i]? = some m) :
    ∃ c, (contentsOf (buildPayload parse req ext))[i]? = some c ∧
      (Carries parse m (vertexTexts c) (vertexCalls c) ↔ m.Sayable parse) := by
  have hturn : (req.messages.map (toVertexContent parse))[i]? = some (toVertexContent parse m) := by
    rw [List.getElem?_map, hm]
    rfl
  obtain ⟨c, hc, hmade⟩ := attachMedia_getElem ((ext.mediaUris.getD []).map mediaPart) hturn
  refine ⟨c, by rw [contentsOf_buildPayload]; exact hc, ?_⟩
  have hsame : vertexTexts c = vertexTexts (toVertexContent parse m) ∧
      vertexCalls c = vertexCalls (toVertexContent parse m) := by
    obtain rfl | rfl := hmade
    · exact ⟨rfl, rfl⟩
    · constructor
      all_goals
        apply extendParts_filterMap
        intro p hp
        obtain ⟨uri, -, rfl⟩ := List.mem_map.mp hp
        rfl
  rw [hsame.1, hsame.2]
  exact native_carries_iff

/-- The standard lane alone loses no arguments. -/
theorem standard_loses_nothing_iff (req : ChatRequest) :
    (∀ (i : Nat) m, req.messages[i]? = some m → ∃ c : ChatMessage, (toGenaiRequest parse req).messages[i]? = some c ∧
      Carries parse m c.content.texts c.content.calls) ↔ ∀ m ∈ req.messages, m.OneKind :=
  forall_sent_iff (standard_sent parse req)

theorem losesNothing_iff (parse : Text → Except String Json) (req : ChatRequest) (ext : VertexExt) :
    LosesNothing parse req ext ↔ ∀ m ∈ req.messages, m.Sayable parse := by
  constructor
  · intro h
    exact (forall_sent_iff (native_sent parse req ext)).mp h.native
  · intro h
    exact ⟨(forall_sent_iff (standard_sent parse req)).mpr fun m hm => (h m hm).toOneKind,
      (forall_sent_iff (native_sent parse req ext)).mpr h⟩

end

/-! ## An assistant that says what it calls -/

def lookupCall (arguments : String) : Json :=
  .object [("id", str "call_1"), ("type", str "function"),
    ("function", .object [("name", str "lookup"), ("arguments", str arguments)])]

def announced : Message :=
  { role := "assistant", content := str "Let me look that up.", toolCalls := some [lookupCall "\x7b\x7d"] }

def parseEmpty (t : Text) : Except String Json :=
  if t = "\x7b\x7d".toList then .ok (.object []) else .error "expected value"

/-- The sentence is on neither lane. -/
theorem announcement_dropped :
    (toGenaiMessage parseEmpty announced).content.texts = [] ∧
      contentsOf (buildPayload parseEmpty { messages := [announced] } {}) =
        [turn "model" [.object [("functionCall", .object [("name", str "lookup"), ("args", .object [])])]]] ∧
      ¬ LosesNothing parseEmpty { messages := [announced] } {} := by
  refine ⟨rfl, rfl, ?_⟩
  intro h
  obtain ⟨c, hc, hcarries⟩ := h.standard 0 announced rfl
  cases hc
  exact absurd (carriesTexts_nil.mp hcarries.texts) (by decide)

end SynapseGateway
