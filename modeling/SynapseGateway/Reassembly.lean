import Mathlib.Data.List.Induction
import Mathlib.Data.List.Nodup
import SynapseGateway.StandardStream

/-!
# Reassembling tool calls

The standard lane numbers call ids as they are first seen, and the accumulator
keeps one slot for each number. Together they gather the fragments of each call
id, however the calls interleave.
-/

namespace SynapseGateway

open Utf8 (Text)

structure Fragment where
  callId : String
  fnName : String
  args : Text

def argsText : Json → Text
  | .string s => s
  | other => other.toText

def ChatStreamEvent.fragment : ChatStreamEvent → Option Fragment
  | .toolCallChunk callId fnName fnArguments => some ⟨callId, fnName, argsText fnArguments⟩
  | _ => none

def ChatStreamEvent.text : ChatStreamEvent → Text
  | .chunk content => content
  | _ => []

/-- The call whose fragments are those of one call id. -/
def callOf (fragments : List Fragment) (callId : String) : ToolCallOut :=
  let own := fragments.filter (·.callId == callId)
  ⟨callId, (own.head?.map (·.fnName)).getD "", own.flatMap (·.args)⟩

def callIds (fragments : List Fragment) : List String := (fragments.map (·.callId)).eraseDups

def gathered (fragments : List Fragment) : List ToolCallOut := (callIds fragments).map (callOf fragments)

def tokensOf (n : Option Int) : Nat := (n.getD 0).toNat

/-! ## One fragment -/

theorem eraseDups_snoc_mem {l : List String} {x : String} (h : x ∈ l) : (l ++ [x]).eraseDups = l.eraseDups := by
  rw [List.eraseDups_append]
  simp [List.removeAll, h]

theorem eraseDups_snoc_not_mem {l : List String} {x : String} (h : x ∉ l) :
    (l ++ [x]).eraseDups = l.eraseDups ++ [x] := by
  rw [List.eraseDups_append]
  simp [List.removeAll, h, List.eraseDups_cons]

theorem nodup_eraseDups (l : List String) : l.eraseDups.Nodup := by
  induction l using List.reverseRecOn with
  | nil => exact List.nodup_nil
  | append_singleton l x ih =>
    by_cases h : x ∈ l
    · rwa [eraseDups_snoc_mem h]
    · rw [eraseDups_snoc_not_mem h, List.nodup_append]
      refine ⟨ih, List.nodup_singleton x, ?_⟩
      intro a ha b hb hab
      rw [List.mem_singleton] at hb
      exact h (hb ▸ hab ▸ List.mem_eraseDups.mp ha)

section
variable {fragments : List Fragment} {f : Fragment} {id : String}

theorem mem_callIds : id ∈ callIds fragments ↔ ∃ g ∈ fragments, g.callId = id := by
  rw [callIds, List.mem_eraseDups, List.mem_map]

theorem callIds_snoc_mem (h : f.callId ∈ callIds fragments) : callIds (fragments ++ [f]) = callIds fragments := by
  rw [callIds, List.map_append]
  exact eraseDups_snoc_mem (List.mem_eraseDups.mp h)

theorem callIds_snoc_not_mem (h : f.callId ∉ callIds fragments) :
    callIds (fragments ++ [f]) = callIds fragments ++ [f.callId] := by
  rw [callIds, List.map_append]
  exact eraseDups_snoc_not_mem fun hmem => h (List.mem_eraseDups.mpr hmem)

theorem callOf_snoc_ne (h : f.callId ≠ id) : callOf (fragments ++ [f]) id = callOf fragments id := by
  unfold callOf
  rw [List.filter_append, List.filter_cons_of_neg (by simpa using h), List.filter_nil, List.append_nil]

theorem callOf_snoc_mem (h : f.callId ∈ callIds fragments) : callOf (fragments ++ [f]) f.callId =
    { callOf fragments f.callId with arguments := (callOf fragments f.callId).arguments ++ f.args } := by
  obtain ⟨g, hg, hid⟩ := mem_callIds.mp h
  have hne : fragments.filter (·.callId == f.callId) ≠ [] := by
    intro hnil
    rw [List.filter_eq_nil_iff] at hnil
    exact hnil g hg (by rw [hid]; exact beq_self_eq_true _)
  unfold callOf
  rw [List.filter_append, List.filter_cons_of_pos (by simp), List.filter_nil]
  simp only [List.flatMap_append, List.flatMap_singleton, List.head?_append_of_ne_nil _ hne]

theorem callOf_snoc_not_mem (h : f.callId ∉ callIds fragments) :
    callOf (fragments ++ [f]) f.callId = ⟨f.callId, f.fnName, f.args⟩ := by
  have hnone : fragments.filter (·.callId == f.callId) = [] := by
    rw [List.filter_eq_nil_iff]
    intro g hg hid
    exact h (mem_callIds.mpr ⟨g, hg, eq_of_beq hid⟩)
  unfold callOf
  rw [List.filter_append, hnone, List.nil_append, List.filter_cons_of_pos (by simp), List.filter_nil]
  simp

theorem resizeCalls_of_lt {calls : List ToolCallOut} {i : Nat} (h : i < calls.length) : resizeCalls calls i = calls := by
  rw [resizeCalls, Nat.sub_eq_zero_of_le h, List.replicate_zero, List.append_nil]

theorem getElem?_gathered (fragments : List Fragment) (j : Nat) :
    (gathered fragments)[j]? = (callIds fragments)[j]?.map (callOf fragments) := List.getElem?_map

theorem gathered_seen {i : Nat} (hi : (callIds fragments)[i]? = some f.callId) :
    (gathered fragments).modify i (fun slot => { slot with arguments := slot.arguments ++ f.args }) =
      gathered (fragments ++ [f]) := by
  have hmem : f.callId ∈ callIds fragments := List.mem_of_getElem? hi
  apply List.ext_getElem?
  intro j
  rw [List.getElem?_modify, getElem?_gathered, getElem?_gathered, callIds_snoc_mem hmem]
  by_cases hij : i = j
  · subst hij
    simp only [hi, Option.map_some, Option.map_eq_map, if_true, callOf_snoc_mem hmem]
  · cases hj : (callIds fragments)[j]? with
    | none => rfl
    | some id =>
      have hne : f.callId ≠ id := by
        intro h
        rw [← h] at hj
        exact hij ((List.getElem?_inj (List.getElem?_eq_some_iff.mp hi).1 (nodup_eraseDups _)).mp (hi.trans hj.symm))
      simp only [if_neg hij, Option.map_some, Option.map_eq_map, callOf_snoc_ne hne]

theorem gathered_first (h : f.callId ∉ callIds fragments) :
    gathered (fragments ++ [f]) = gathered fragments ++ [⟨f.callId, f.fnName, f.args⟩] := by
  have hsame : (callIds fragments).map (callOf (fragments ++ [f])) = gathered fragments := by
    apply List.map_congr_left
    intro id hid
    exact callOf_snoc_ne fun heq => h (heq ▸ hid)
  rw [gathered, callIds_snoc_not_mem h, List.map_append, hsame, List.map_singleton, callOf_snoc_not_mem h]

theorem length_gathered (fragments : List Fragment) : (gathered fragments).length = (callIds fragments).length :=
  List.length_map _

theorem modify_last (calls : List ToolCallOut) (call : ToolCallOut) (g : ToolCallOut → ToolCallOut) :
    (calls ++ [call]).modify calls.length g = calls ++ [g call] := by
  induction calls with
  | nil => rfl
  | cons c calls ih => exact congrArg (List.cons c) ih

theorem push_fragment {acc : Accumulator} (hacc : acc.toolCalls = gathered fragments) (f : Fragment) :
    (indexOf (callIds fragments) f.callId).2.2 = callIds (fragments ++ [f]) ∧
      acc.push (.toolCallDelta (indexOf (callIds fragments) f.callId).1
        (if (indexOf (callIds fragments) f.callId).2.1 then some f.callId else none)
        (if (indexOf (callIds fragments) f.callId).2.1 then some f.fnName else none) f.args) =
        { acc with toolCalls := gathered (fragments ++ [f]) } := by
  unfold indexOf Accumulator.push
  cases hpos : (callIds fragments).idxOf? f.callId with
  | some i =>
    obtain ⟨hi, hget, -⟩ := List.idxOf?_eq_some_iff.mp hpos
    have hi' : (callIds fragments)[i]? = some f.callId := by rw [List.getElem?_eq_getElem hi, hget]
    have hlen : i < (gathered fragments).length := by rwa [length_gathered]
    refine ⟨(callIds_snoc_mem (List.mem_of_getElem? hi')).symm, ?_⟩
    simp only [hacc, resizeCalls_of_lt hlen]
    rw [← gathered_seen hi']
    rfl
  | none =>
    have hnew : f.callId ∉ callIds fragments := List.idxOf?_eq_none_iff.mp hpos
    refine ⟨(callIds_snoc_not_mem hnew).symm, ?_⟩
    have hslot : resizeCalls (gathered fragments) (callIds fragments).length = gathered fragments ++ [⟨"", "", []⟩] := by
      rw [resizeCalls, length_gathered, Nat.add_sub_cancel_left]
      rfl
    simp only [hacc, hslot, gathered_first hnew]
    rw [← length_gathered, modify_last]
    rfl

end

/-! ## A whole stream -/

def fragmentsOf (events : List ChatStreamEvent) : List Fragment := events.filterMap ChatStreamEvent.fragment

def textOf (events : List ChatStreamEvent) : Text := (events.map ChatStreamEvent.text).flatten

/-- What the accumulator holds after `events` that are not the last. -/
structure Gathered (events : List ChatStreamEvent) (st : GenaiState) (acc : Accumulator) : Prop where
  ids : st.ids = callIds (fragmentsOf events)
  tokens : st.inputTokens = 0 ∧ st.outputTokens = 0
  acc : acc = { content := textOf events, toolCalls := gathered (fragmentsOf events) }

theorem textOf_snoc (events : List ChatStreamEvent) (ev : ChatStreamEvent) :
    textOf (events ++ [ev]) = textOf events ++ ev.text := by
  rw [textOf, List.map_append, List.flatten_append, ← textOf, List.map_singleton, List.flatten_singleton]

theorem fragmentsOf_snoc (events : List ChatStreamEvent) (ev : ChatStreamEvent) :
    fragmentsOf (events ++ [ev]) = fragmentsOf events ++ ev.fragment.toList := by
  rw [fragmentsOf, List.filterMap_append, ← fragmentsOf]
  cases h : ev.fragment with
  | none => rw [List.filterMap_cons_none h]; rfl
  | some f => rw [List.filterMap_cons_some h]; rfl

section
variable {events : List ChatStreamEvent} {st : GenaiState} {acc : Accumulator}

theorem Gathered.silent (h : Gathered events st acc) {ev : ChatStreamEvent} (htext : ev.text = [])
    (hfragment : ev.fragment = none) : Gathered (events ++ [ev]) st acc := by
  obtain ⟨hids, htokens, hacc⟩ := h
  have hfragments : fragmentsOf (events ++ [ev]) = fragmentsOf events := by
    rw [fragmentsOf_snoc, hfragment]
    exact List.append_nil _
  refine ⟨by rw [hfragments, hids], htokens, ?_⟩
  rw [hfragments, textOf_snoc, htext, List.append_nil, hacc]

theorem Gathered.step (h : Gathered events st acc) {ev : ChatStreamEvent} (hev : ev.isFinish = false) :
    Gathered (events ++ [ev]) (genaiItem st ev).2 ((genaiItem st ev).1.toList.foldl Accumulator.push acc) := by
  cases ev with
  | finish usage stop => cases hev
  | start => exact h.silent rfl rfl
  | reasoningChunk t => exact h.silent rfl rfl
  | thoughtSignatureChunk t => exact h.silent rfl rfl
  | chunk content =>
    cases content with
    | nil => exact h.silent rfl rfl
    | cons c t =>
      obtain ⟨hids, htokens, rfl⟩ := h
      have hfragments : fragmentsOf (events ++ [.chunk (c :: t)]) = fragmentsOf events := by
        rw [fragmentsOf_snoc]
        exact List.append_nil _
      refine ⟨by rw [hfragments]; exact hids, htokens, ?_⟩
      rw [hfragments, textOf_snoc]
      rfl
  | toolCallChunk callId fnName fnArguments =>
    obtain ⟨hids, htokens, rfl⟩ := h
    obtain ⟨hnext, hpush⟩ := @push_fragment (fragmentsOf events)
      { content := textOf events, toolCalls := gathered (fragmentsOf events) } rfl
      ⟨callId, fnName, argsText fnArguments⟩
    have hfragments : fragmentsOf (events ++ [.toolCallChunk callId fnName fnArguments]) =
        fragmentsOf events ++ [⟨callId, fnName, argsText fnArguments⟩] := fragmentsOf_snoc _ _
    have htext : textOf (events ++ [.toolCallChunk callId fnName fnArguments]) = textOf events := by
      rw [textOf_snoc]
      exact List.append_nil _
    refine ⟨?_, htokens, ?_⟩
    · rw [hfragments, ← hnext, ← hids]
      rfl
    · rw [hfragments, htext, ← hpush, ← hids]
      cases fnArguments <;> rfl

/-- The items of a stream that goes on after `events`. -/
theorem normalizedFrom_gathered (h : Gathered events st acc) {rest : List ChatStreamEvent}
    (hrest : ∀ ev ∈ rest, ev.isFinish = false) (usage : Option Usage) (stop : Option StopReason) :
    ∃ items : List StreamItem, normalizedFrom st ((rest ++ [ChatStreamEvent.finish usage stop]).map .ok) = items.map .ok ∧
      items.foldl Accumulator.push acc =
        { content := textOf (events ++ rest)
          toolCalls := gathered (fragmentsOf (events ++ rest))
          inputTokens := tokensOf (usage.bind (·.promptTokens))
          outputTokens := tokensOf (usage.bind (·.completionTokens))
          finishReason := mapStopReason stop
          gotDone := true } := by
  induction rest generalizing events st acc with
  | nil =>
    obtain ⟨-, ⟨hin, hout⟩, rfl⟩ := h
    refine ⟨(genaiItem st (.finish usage stop)).1.toList, by simp [normalizedFrom], ?_⟩
    rw [List.append_nil]
    cases usage with
    | none => simp [genaiItem, Accumulator.push, tokensOf, hin, hout]
    | some u => rfl
  | cons ev rest ih =>
    obtain ⟨hev, hrest⟩ := List.forall_mem_cons.mp hrest
    obtain ⟨items, hitems, hfold⟩ := ih (h.step hev) hrest
    refine ⟨(genaiItem st ev).1.toList ++ items, ?_, ?_⟩
    · rw [List.cons_append, List.map_cons, normalizedFrom, hitems, List.map_append]
    · rw [List.foldl_append, hfold, List.append_assoc]
      rfl

end

/-- The whole reply of a stream that ends with its one terminal event. -/
theorem tool_calls_gathered {events : List ChatStreamEvent} (h : ∀ ev ∈ events, ev.isFinish = false)
    (usage : Option Usage) (stop : Option StopReason) :
    ∃ items : List StreamItem, normalizedStream ((events ++ [ChatStreamEvent.finish usage stop]).map .ok) = items.map .ok ∧
      items.foldl Accumulator.push {} =
        { content := textOf events
          toolCalls := gathered (fragmentsOf events)
          inputTokens := tokensOf (usage.bind (·.promptTokens))
          outputTokens := tokensOf (usage.bind (·.completionTokens))
          finishReason := mapStopReason stop
          gotDone := true } := by
  have hstart : Gathered [] {} {} := ⟨rfl, ⟨rfl, rfl⟩, rfl⟩
  exact normalizedFrom_gathered hstart h usage stop

def weatherCalls : List ChatStreamEvent := [
  .chunk "ok ".toList,
  .toolCallChunk "a" "weather" (str "\x7b\"city\":"),
  .toolCallChunk "b" "time" (.object []),
  .reasoningChunk "hm".toList,
  .toolCallChunk "a" "weather" (str "\"Rome\"\x7d"),
  .chunk "then".toList]

theorem tool_calls_gathered_weather : ∃ items : List StreamItem,
    normalizedStream ((weatherCalls ++ [ChatStreamEvent.finish (some ⟨some 7, none⟩) (some .toolCall)]).map .ok) =
        items.map .ok ∧
      items.foldl Accumulator.push {} =
        { content := "ok then".toList
          toolCalls := [⟨"a", "weather", "\x7b\"city\":\"Rome\"\x7d".toList⟩, ⟨"b", "time", "\x7b\x7d".toList⟩]
          inputTokens := 7
          finishReason := .toolCalls
          gotDone := true } := by
  have hcalls : gathered (fragmentsOf weatherCalls) =
      [⟨"a", "weather", "\x7b\"city\":\"Rome\"\x7d".toList⟩, ⟨"b", "time", "\x7b\x7d".toList⟩] := by decide +kernel
  have htext : textOf weatherCalls = "ok then".toList := by decide +kernel
  rw [← hcalls, ← htext]
  exact tool_calls_gathered (by decide) (some ⟨some 7, none⟩) (some .toolCall)

end SynapseGateway
