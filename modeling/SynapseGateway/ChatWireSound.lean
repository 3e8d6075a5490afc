import SynapseGateway.BufferedLeg
import SynapseGateway.ChatWire
import SynapseGateway.Reassembly

/-!
# What a client receives

However the bytes of a streamed reply arrive, a client reads its items from
them; and a buffered reply says what the stream of the same items says.
-/

namespace SynapseGateway

open Utf8 (Text)

/-! ## Frames -/

theorem Printable.no_newline {t : Text} (h : Printable t) : '\n' ∉ t :=
  fun hm => absurd (h _ hm) (by decide)

theorem Printable.no_return {t : Text} (h : Printable t) : '\r' ∉ t :=
  fun hm => absurd (h _ hm) (by decide)

/-- An ASCII byte of a text is one of its characters. -/
theorem char_of_byte {b : UInt8} (hb : b.toNat < 0x80) {t : Text} (h : b ∈ utf8Bytes t) : Char.ofNat b.toNat ∈ t := by
  obtain ⟨c, hc, hbc⟩ := List.mem_flatMap.mp h
  by_cases hlow : c.toNat < 0x80
  · rw [utf8EncodeChar_ascii hlow, List.mem_singleton] at hbc
    rwa [hbc, toNat_ofNat_byte (by omega), Char.ofNat_toNat]
  · have hhigh := utf8EncodeChar_high (c := c) (by rw [asciiChar, if_neg hlow]) b hbc
    omega

theorem position_skip {b : UInt8} {w u : Bytes} (hu : b ∉ u) (v : Bytes) :
    position (b :: w) (u ++ v) = (position (b :: w) v).map (· + u.length) := by
  induction u with
  | nil => simp
  | cons a u ih =>
    have ha : ¬ b = a := fun h => hu (h ▸ List.mem_cons_self)
    rw [List.cons_append, position, ih fun h => hu (List.mem_cons_of_mem _ h)]
    simp [ha]

theorem cut_line {t : Text} (hn : '\n' ∉ t) (hr : '\r' ∉ t) (rest : Bytes) :
    sse.cut (utf8Bytes (t ++ ['\n'] ++ ['\n']) ++ rest) = some (utf8Bytes (t ++ ['\n'] ++ ['\n']), rest) := by
  have hbytes : utf8Bytes (t ++ ['\n'] ++ ['\n']) = utf8Bytes t ++ lf := by
    rw [List.append_assoc, utf8Bytes_append]
    rfl
  have hlf : position lf (utf8Bytes t ++ (lf ++ rest)) = some (utf8Bytes t).length := by
    rw [lf, position_skip (fun h => hn (char_of_byte (by decide) h))]
    simp [position]
  have hnext : nextSseBoundary (utf8Bytes t ++ (lf ++ rest)) = some ((utf8Bytes t).length, 2) := by
    unfold nextSseBoundary
    rw [hlf]
    have hcr : position crlf (utf8Bytes t ++ (lf ++ rest)) = (position crlf (lf ++ rest)).map (· + (utf8Bytes t).length) :=
      position_skip (fun h => hr (char_of_byte (by decide) h)) _
    cases hp : position crlf (lf ++ rest) with
    | none => simp [hcr, hp]
    | some b => simp [hcr, hp]
  show cutEvent _ = _
  rw [hbytes, List.append_assoc, cutEvent, hnext]
  have hlen : (utf8Bytes t).length + 2 = (utf8Bytes t ++ lf).length := by simp [lf]
  simp only [Option.map_some]
  rw [hlen, ← List.append_assoc, List.take_left, List.drop_left]

section
variable {axum : SseCrate} (haxum : axum.Framed)
include haxum

theorem cut_event {d : Text} (hd : Printable d) (rest : Bytes) :
    sse.cut (utf8Bytes (axum.event d) ++ rest) = some (utf8Bytes (axum.event d), rest) := by
  have hline : Printable ("data: ".toList ++ d) := Printable.append (by decide) hd
  rw [haxum d hd.no_newline hd.no_return]
  exact cut_line hline.no_newline hline.no_return rest

theorem eventDataOf_event {d : Text} (hd : Printable d) : eventDataOf (utf8Bytes (axum.event d)) = d := by
  have hline : Printable ("data: ".toList ++ d) := Printable.append (by decide) hd
  rw [eventDataOf, fromUtf8Lossy_utf8Bytes, haxum d hd.no_newline hd.no_return, List.append_assoc]
  obtain ⟨l, tail, hl, htail, hlines⟩ := lines_line hline.no_newline ['\n']
  have hnil : tail = [] := by
    cases tail with
    | nil => rfl
    | cons c tail =>
      have hc := htail c List.mem_cons_self
      have hmem : '\r' ∈ "data: ".toList ++ d := by
        rw [hl]
        simp [hc]
      exact absurd hmem hline.no_return
  rw [hnil, List.append_nil] at hl
  have hlast : lines ['\n'] = [[]] := rfl
  rw [List.singleton_append, hlines, ← hl, hlast]
  have hstrip : stripPrefix "data: ".toList ("data: ".toList ++ d) = some d := stripPrefix_append _ _
  have hempty : stripPrefix "data: ".toList [] = none := rfl
  rw [List.filterMap_cons_some hstrip, List.filterMap_cons_none hempty, List.filterMap_nil]
  exact List.intercalate_singleton

end

/-! ## Data -/

theorem exact_strs : ∀ ss : List String, Json.ExactAll (ss.map str)
  | [] => trivial
  | _ :: ss => ⟨trivial, exact_strs ss⟩

theorem exact_toolCall (index : Nat) (id name : Option String) (args : Text) :
    (toolCallJson index id name args).Exact := by
  cases id <;> cases name <;>
    simp [toolCallJson, Json.set, Json.insertMember, Json.membersOf, Json.Exact, Json.ExactMembers, Json.ofU64, str]

theorem exact_item (item : StreamItem) (id model : String) : (streamItemToSseJson item id model).Exact := by
  cases item with
  | delta t => simp [streamItemToSseJson, chunkJson, Json.Exact, Json.ExactAll, Json.ExactMembers, Json.ofU64, str]
  | toolCallDelta index callId name args =>
    have hcall := exact_toolCall index callId name args
    simp [streamItemToSseJson, chunkJson, Json.Exact, Json.ExactAll, Json.ExactMembers, Json.ofU64, str, hcall]
  | done i o finish => simp [streamItemToSseJson, chunkJson, Json.Exact, Json.ExactAll, Json.ExactMembers, Json.ofU64, str]
  | blocked policy scanners =>
    have hscanners := exact_strs scanners
    simp [streamItemToSseJson, Json.Exact, Json.ExactMembers, str, hscanners]

theorem exact_upstreamError (message : String) : (upstreamErrorJson message).Exact := by
  simp [upstreamErrorJson, Json.Exact, Json.ExactMembers, str]

theorem printable_itemData (id model : String) (item : Except LegError StreamItem) : Printable (itemData id model item) := by
  cases item with
  | ok item => exact printable_toText (exact_item item id model)
  | error e => exact printable_toText (exact_upstreamError e.message)

@[simp] theorem asString_str (s : String) : (str s).asString = some s := by
  simp [Json.asString, Json.asStr, str]

@[simp] theorem ofStr_asStr (r : FinishReason) : FinishReason.ofStr r.asStr = some r := by
  cases r <;> decide

theorem readToolCall_json (index : Nat) (id name : Option String) (args : Text) :
    readToolCall (toolCallJson index id name args) = some (.toolCallDelta index id name args) := by
  cases id <;> cases name <;>
    simp [readToolCall, toolCallJson, Json.set, Json.insertMember, Json.membersOf, Json.key, Json.get?, Json.ofU64,
      Json.asU64, Json.asString, Json.asStr, str, List.lookup_cons]

theorem filterMap_asString : ∀ ss : List String, (ss.map str).filterMap Json.asString = ss
  | [] => rfl
  | s :: ss => by
    rw [List.map_cons, List.filterMap_cons_some (asString_str s), filterMap_asString ss]

theorem readChatEvent_json {v : Json} (hv : v.Exact) {members : List (String × Json)} (hm : v = .object members) :
    readChatEvent v.toText = match v.get? "error" with
      | some e => readFailure e
      | none => (readChoice ((v.key "choices").index 0)).map .item := by
  have hne : v.toText ≠ "[DONE]".toList := by
    rw [hm, Json.toText]
    simp
  rw [readChatEvent, if_neg hne, readJson_toText hv]
  rfl

theorem readChatEvent_itemData (id model : String) (item : Except LegError StreamItem) :
    readChatEvent (itemData id model item) = some (seenAs item) := by
  cases item with
  | error e =>
    rw [itemData, readChatEvent_json (exact_upstreamError e.message) rfl]
    simp [upstreamErrorJson, Json.get?, readFailure, Json.key, Json.asArray, seenAs, List.lookup_cons]
  | ok item =>
    have hexact := exact_item item id model
    rw [itemData]
    cases item with
    | delta t =>
      rw [readChatEvent_json hexact rfl]
      simp [streamItemToSseJson, chunkJson, Json.get?, Json.key, Json.index, readChoice, Json.asString, Json.asStr, seenAs,
        List.lookup_cons]
    | toolCallDelta index callId name args =>
      have hcall := readToolCall_json index callId name args
      rw [readChatEvent_json hexact rfl]
      simp [streamItemToSseJson, chunkJson, Json.get?, Json.key, Json.index, readChoice, Json.asString, Json.asStr, seenAs,
        List.lookup_cons, hcall]
    | done i o finish =>
      rw [readChatEvent_json hexact rfl]
      simp [streamItemToSseJson, chunkJson, Json.get?, Json.key, Json.index, readChoice, seenAs, List.lookup_cons]
    | blocked policy scanners =>
      have hscanners := filterMap_asString scanners
      rw [readChatEvent_json hexact rfl]
      simp [streamItemToSseJson, Json.get?, readFailure, Json.key, Json.asArray, seenAs, List.lookup_cons, hscanners]

/-! ## The body -/

def eventsOf (items : List (Except LegError StreamItem)) : List (Option ChatEvent) :=
  (items.map seenAs).map some ++ [some .finished]

theorem sseBody_frames (axum : SseCrate) (items : List (Except LegError StreamItem)) (id model : String) :
    sseBody axum items id model = ((sseFrames axum items id model).map utf8Bytes).flatten := by
  rw [sseBody]
  induction sseFrames axum items id model with
  | nil => rfl
  | cons t ts ih => rw [List.flatten_cons, utf8Bytes_append, ih, List.map_cons, List.flatten_cons]

theorem receive_eq (chunks : List Bytes) :
    receive chunks = (sse.drain chunks.flatten).1.map fun event => readChatEvent (eventDataOf event) := by
  rw [receive, Framing.Cutter.feed_eq_drain rfl, List.nil_append]

theorem seenAs_ne_finished (item : Except LegError StreamItem) : seenAs item ≠ .finished := by
  cases item with
  | error e => simp [seenAs]
  | ok item => cases item <;> simp [seenAs]

section
variable {axum : SseCrate} (haxum : axum.Framed)
include haxum

theorem drain_sseBody (items : List (Except LegError StreamItem)) (id model : String) :
    (sse.drain (sseBody axum items id model)).1 = (sseFrames axum items id model).map utf8Bytes := by
  rw [sseBody_frames]
  apply Framing.Cutter.drain_frames
  intro f hf r
  obtain ⟨t, ht, rfl⟩ := List.mem_map.mp hf
  obtain ⟨d, hd, rfl⟩ := List.mem_map.mp ht
  apply cut_event haxum
  rcases List.mem_append.mp hd with hd | hd
  · obtain ⟨item, -, rfl⟩ := List.mem_map.mp hd
    exact printable_itemData id model item
  · rw [List.mem_singleton.mp hd]
    decide

theorem events_sseFrames (items : List (Except LegError StreamItem)) (id model : String) :
    ((sseFrames axum items id model).map utf8Bytes).map (fun event => readChatEvent (eventDataOf event)) = eventsOf items := by
  have hdone : readChatEvent (eventDataOf (utf8Bytes (axum.event "[DONE]".toList))) = some .finished := by
    rw [eventDataOf_event haxum (by decide), readChatEvent, if_pos rfl]
  have hitems : (items.map (itemData id model)).map (fun d => readChatEvent (eventDataOf (utf8Bytes (axum.event d)))) =
      (items.map seenAs).map some := by
    rw [List.map_map, List.map_map]
    apply List.map_congr_left
    intro item _
    show readChatEvent (eventDataOf (utf8Bytes (axum.event (itemData id model item)))) = _
    rw [eventDataOf_event haxum (printable_itemData id model item), readChatEvent_itemData]
    rfl
  rw [sseFrames, List.map_map, List.map_map, List.map_append, eventsOf, List.map_cons, List.map_nil]
  exact congrArg₂ (· ++ ·) hitems (congrArg (fun e => [e]) hdone)

/-- The end is received with the whole body only. -/
theorem finished_received {items : List (Except LegError StreamItem)} {id model : String} {chunks : List Bytes}
    (hpre : chunks.flatten <+: sseBody axum items id model) (hfin : some .finished ∈ receive chunks) :
    chunks.flatten = sseBody axum items id model := by
  have hframes : (sse.drain chunks.flatten).1 <+: (sse.drain (sseBody axum items id model)).1 := Framing.Cutter.drain_prefix hpre
  obtain ⟨rest, hrest⟩ := hframes
  have hevents := events_sseFrames haxum items id model
  rw [← drain_sseBody haxum, ← hrest, List.map_append, ← receive_eq] at hevents
  have hlast : rest = [] := by
    rcases List.eq_nil_or_concat rest with h | ⟨init, last, rfl⟩
    · exact h
    · rw [eventsOf, List.concat_eq_append, List.map_append, ← List.append_assoc] at hevents
      obtain ⟨hinit, -⟩ := List.append_inj' hevents rfl
      have hmem : some .finished ∈ (items.map seenAs).map some := hinit ▸ List.mem_append_left _ hfin
      obtain ⟨item, -, hitem⟩ := List.mem_map.mp (by simpa using hmem)
      exact absurd hitem (seenAs_ne_finished item)
  have hall := Framing.Cutter.drain_flatten (k := sse) (Nat.le_refl chunks.flatten.length)
  rw [hlast, List.append_nil, drain_sseBody haxum] at hrest
  rw [hrest, ← sseBody_frames] at hall
  exact hpre.eq_of_length_le (by rw [← hall, List.length_append]; omega)

theorem receive_whole {items : List (Except LegError StreamItem)} {id model : String} {chunks : List Bytes}
    (h : chunks.flatten = sseBody axum items id model) : receive chunks = eventsOf items := by
  rw [receive_eq, h, drain_sseBody haxum, events_sseFrames haxum]

theorem receive_part {items : List (Except LegError StreamItem)} {id model : String} {chunks : List Bytes}
    (h : chunks.flatten <+: sseBody axum items id model) : receive chunks <+: eventsOf items := by
  rw [receive_eq, ← events_sseFrames haxum items id model, ← drain_sseBody haxum]
  exact (Framing.Cutter.drain_prefix h).map _

end

/-- What a client has received of a body. -/
structure Received (items : List (Except LegError StreamItem)) (body : Bytes) (chunks : List Bytes) : Prop where
  whole : chunks.flatten = body → receive chunks = eventsOf items
  part : chunks.flatten <+: body → receive chunks <+: eventsOf items
  finished : chunks.flatten <+: body → some .finished ∈ receive chunks → chunks.flatten = body

theorem sse_body_received {axum : SseCrate} (haxum : axum.Framed) (items : List (Except LegError StreamItem))
    (id model : String) (chunks : List Bytes) : Received items (sseBody axum items id model) chunks where
  whole := receive_whole haxum
  part := receive_part haxum
  finished := finished_received haxum

/-- A field for each line of the data. -/
def fieldSse : SseCrate where
  event data := ((data.splitOn '\n').flatMap fun line => "data: ".toList ++ line ++ ['\n']) ++ ['\n']

theorem fieldSse_framed : fieldSse.Framed := by
  intro d hn _
  have hsplit : d.splitOn '\n' = [d] := by
    apply List.splitOnP_eq_singleton
    intro c hc
    rw [beq_eq_false_iff_ne]
    rintro rfl
    exact hn hc
  simp [fieldSse, hsplit]

theorem delta_body_received : Received [.ok (.delta "é".toList)] (sseBody fieldSse [.ok (.delta "é".toList)] "r1" "m")
    ((sseBody fieldSse [.ok (.delta "é".toList)] "r1" "m").map fun b => [b]) :=
  sse_body_received fieldSse_framed _ "r1" "m" _

/-! ## A buffered reply -/

theorem push_call {acc : Accumulator} {c : ToolCallOut} {i : Nat} (hi : i = acc.toolCalls.length) :
    acc.push (.toolCallDelta i (some c.id) (some c.name) c.arguments) = { acc with toolCalls := acc.toolCalls ++ [c] } := by
  subst hi
  have hresize : resizeCalls acc.toolCalls acc.toolCalls.length = acc.toolCalls ++ [⟨"", "", []⟩] := by
    simp [resizeCalls]
  rw [Accumulator.push, hresize, modify_last]
  rfl

/-- Tool calls numbered in order are accumulated to themselves. -/
theorem push_calls (calls : List ToolCallOut) (acc : Accumulator) (hlen : acc.toolCalls.length + calls.length ≤ 2 ^ 32) :
    ((calls.zipIdx acc.toolCalls.length).map fun p =>
      StreamItem.toolCallDelta (p.2 % 2 ^ 32) (some p.1.id) (some p.1.name) p.1.arguments).foldl Accumulator.push acc =
      { acc with toolCalls := acc.toolCalls ++ calls } := by
  induction calls generalizing acc with
  | nil => simp
  | cons c calls ih =>
    rw [List.length_cons] at hlen
    have hindex : acc.toolCalls.length % 2 ^ 32 = acc.toolCalls.length := Nat.mod_eq_of_lt (by omega)
    have hnext := ih { acc with toolCalls := acc.toolCalls ++ [c] } (by
      simp only [List.length_append, List.length_singleton]
      omega)
    rw [List.zipIdx_cons, List.map_cons, List.foldl_cons, push_call hindex]
    simpa using hnext

theorem foldl_items (c : Completion) (hlen : c.toolCalls.length ≤ 2 ^ 32) :
    c.items.foldl Accumulator.push {} = {
      content := if c.toolCalls.isEmpty then c.content else []
      toolCalls := c.toolCalls
      inputTokens := c.inputTokens
      outputTokens := c.outputTokens
      finishReason := c.finishReason
      gotDone := true } := by
  rw [Completion.items, List.foldl_append]
  cases hcalls : c.toolCalls with
  | nil => simp [Accumulator.push]
  | cons call calls =>
    have h := push_calls c.toolCalls {} (by simpa using hlen)
    rw [hcalls] at h
    simp only [List.isEmpty_cons, Bool.false_eq_true, if_false, List.length_nil] at h ⊢
    rw [h]
    simp [Accumulator.push]

theorem readCallOut_json (c : ToolCallOut) : readCallOut c.json = some c := by
  simp [readCallOut, ToolCallOut.json, Json.key, Json.get?, Json.asStr, List.lookup_cons]

theorem mapM_readCallOut : ∀ calls : List ToolCallOut, (calls.map ToolCallOut.json).mapM readCallOut = some calls
  | [] => rfl
  | c :: calls => by
    rw [List.map_cons, List.mapM_cons, readCallOut_json, mapM_readCallOut calls]
    rfl

theorem exact_calls : ∀ calls : List ToolCallOut, Json.ExactAll (calls.map ToolCallOut.json)
  | [] => trivial
  | c :: calls => ⟨by simp [ToolCallOut.json, Json.Exact, Json.ExactMembers, str], exact_calls calls⟩

theorem readReply_openaiJson (c : Completion) (hlen : c.toolCalls.length ≤ 2 ^ 32) (id : String) (now : Nat) :
    readReply (utf8Bytes (openaiJson c id now).toText) =
      some ({ content := if c.toolCalls = [] then some c.content else none, toolCalls := c.toolCalls,
              finish := some c.finishReason },
        ⟨c.inputTokens, c.outputTokens, (c.inputTokens + c.outputTokens) % 2 ^ 64⟩) := by
  have hexact : (openaiJson c id now).Exact := by
    have hcalls := exact_calls c.toolCalls
    rw [openaiJson, foldl_items c hlen]
    by_cases hc : c.toolCalls.isEmpty = true
    · simp [Accumulator.toOpenaiResponse, Json.Exact, Json.ExactAll, Json.ExactMembers, Json.ofU64, str, hc]
    · simp [Accumulator.toOpenaiResponse, Json.Exact, Json.ExactAll, Json.ExactMembers, Json.ofU64, str, hc, hcalls]
  have hcalls := mapM_readCallOut c.toolCalls
  rw [readReply, fromUtf8Lossy_utf8Bytes, readJson_toText hexact, openaiJson, foldl_items c hlen]
  by_cases hc : c.toolCalls = []
  · simp [Accumulator.toOpenaiResponse, Json.key, Json.get?, Json.index, Json.asArray, Json.asU64, Json.ofU64, Json.asStr,
      List.lookup_cons, hc]
  · simp [Accumulator.toOpenaiResponse, Json.key, Json.get?, Json.index, Json.asArray, Json.asU64, Json.ofU64, Json.asStr,
      List.lookup_cons, hc, hcalls, -List.mapM_map]

/-! ## Both replies -/

/-- The stream does not say what tokens were used. -/
def Accumulator.untold (acc : Accumulator) : Accumulator := { acc with inputTokens := 0, outputTokens := 0 }

theorem push_seen (item : StreamItem) (acc : Accumulator) :
    (itemsOf [some (seenAs (.ok item))]).foldl Accumulator.push acc.untold = (acc.push item).untold := by
  cases item <;> rfl

theorem foldl_received (items : List StreamItem) (acc : Accumulator) :
    (itemsOf (eventsOf (items.map .ok))).foldl Accumulator.push acc.untold = (items.foldl Accumulator.push acc).untold := by
  induction items generalizing acc with
  | nil => rfl
  | cons item items ih =>
    have hsplit : itemsOf (eventsOf ((item :: items).map .ok)) =
        itemsOf [some (seenAs (.ok item))] ++ itemsOf (eventsOf (items.map .ok)) :=
      List.filterMap_append (l := [some (seenAs (.ok item))])
    rw [hsplit, List.foldl_append, push_seen, ih, List.foldl_cons]

theorem assemble_received (items : List StreamItem) {acc : Accumulator} (h : items.foldl Accumulator.push {} = acc) :
    assemble (eventsOf (items.map .ok)) =
      { content := some acc.content, toolCalls := acc.toolCalls, finish := if acc.gotDone then some acc.finishReason else none } := by
  have hfold : (itemsOf (eventsOf (items.map .ok))).foldl Accumulator.push {} = acc.untold := by
    rw [← h]
    exact foldl_received items {}
  rw [assemble, hfold]
  rfl

/-- A buffered reply says what the stream of its items says, but for the text beside tool calls. -/
theorem buffered_streamed_agree {axum : SseCrate} (haxum : axum.Framed) {items : List StreamItem}
    {provider model : String} {c : Completion} (hdrained : drained provider model (items.foldl Accumulator.push {}) = .ok c)
    (hlen : c.toolCalls.length ≤ 2 ^ 32)
    (id : String) (now : Nat) {chunks : List Bytes} (hchunks : chunks.flatten = sseBody axum (items.map .ok) id model) :
    assemble (receive chunks) = { content := some c.content, toolCalls := c.toolCalls, finish := some c.finishReason } ∧
      readReply (utf8Bytes (openaiJson c id now).toText) =
        some ({ assemble (receive chunks) with content := if c.toolCalls = [] then some c.content else none },
          ⟨c.inputTokens, c.outputTokens, (c.inputTokens + c.outputTokens) % 2 ^ 64⟩) := by
  have hstream : assemble (receive chunks) =
      { content := some c.content, toolCalls := c.toolCalls, finish := some c.finishReason } := by
    unfold drained at hdrained
    by_cases hdone : (items.foldl Accumulator.push {}).gotDone = true
    · rw [if_pos hdone] at hdrained
      cases hdrained
      rw [receive_whole haxum hchunks, assemble_received items rfl, if_pos hdone]
      rfl
    · rw [if_neg hdone] at hdrained
      cases hdrained
  refine ⟨hstream, ?_⟩
  rw [hstream, readReply_openaiJson c hlen]

def callItems : List StreamItem :=
  [.delta "Let me look.".toList, .toolCallDelta 0 (some "call_a") (some "find") "\x7b\"q\":".toList,
    .toolCallDelta 0 none none "\"é\"\x7d".toList, .done 7 5 .toolCalls]

/-- The text before a tool call is only in the stream. -/
theorem call_items_agree : ∃ (c : Completion) (chunks : List Bytes),
    c.content = "Let me look.".toList ∧ chunks.flatten = sseBody fieldSse (callItems.map .ok) "r1" "m" ∧
      assemble (receive chunks) = { content := some c.content, toolCalls := c.toolCalls, finish := some c.finishReason } ∧
        readReply (utf8Bytes (openaiJson c "r1" 0).toText) =
          some ({ assemble (receive chunks) with content := none }, ⟨7, 5, 12⟩) := by
  have hchunks : ((sseBody fieldSse (callItems.map .ok) "r1" "m").map fun b => [b]).flatten =
      sseBody fieldSse (callItems.map .ok) "r1" "m" := by
    rw [← List.flatMap_def, List.flatMap_singleton']
  exact ⟨_, _, rfl, hchunks,
    @buffered_streamed_agree fieldSse fieldSse_framed callItems "p" "m" _ rfl (by decide) "r1" 0 _ hchunks⟩

end SynapseGateway
