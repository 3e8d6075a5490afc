import SynapseGateway.HarnessJev
import SynapseGateway.Lib.Budget
import SynapseGateway.Request

/-!
# The Jev state of a chat request and its budget

The state is bounded by capping its parts and stopping the history at what is
left. `state_within_budget`: the state of a turn is always within the budget,
that of a chat request exactly when the roles of its history fit beside the
texts.
-/

namespace SynapseGateway

open String (utf8Len utf8Len_cons)
open Utf8 (Text)

/-! ## The texts of the messages -/

def partText (part : Json) : Text :=
  match (part.get? "type").bind Json.asStr with
  | none => []
  | some ty =>
    if ty = "text".toList then ((part.get? "text").bind Json.asStr).getD []
    else if ty = "image_url".toList ∨ ty = "image".toList then "[image]".toList
    else if ty = "input_audio".toList ∨ ty = "audio".toList then "[audio]".toList
    else if ty = "file".toList then "[file]".toList
    else []

def messageText : Json → Text
  | .string s => s
  | .array parts => List.intercalate ['\n'] ((parts.map partText).filter (!·.isEmpty))
  | .null => []
  | other => other.toText

def isImagePart (part : Json) : Bool :=
  match (part.get? "type").bind Json.asStr with
  | none => false
  | some ty => ty = "image_url".toList ∨ ty = "image".toList

def ChatRequest.hasImages (req : ChatRequest) (ext : Option VertexExt) : Bool :=
  (req.messages.any fun m => (m.content.asArray.getD []).any isImagePart) ||
    (((ext.bind (·.mediaUris)).getD []).isEmpty == false)

/-! ## The state -/

def latestUser (messages : List Message) : Option Nat :=
  (messages.zipIdx.reverse.find? fun (m, _) => m.role == "user").map (·.2)

def latestText (messages : List Message) : Text :=
  (((latestUser messages).bind (messages[·]?)).map fun m => headTail (messageText m.content) LATEST_CAP).getD []

def systemText (messages : List Message) : Text :=
  ((messages.find? fun m => m.role == "system").map fun m => truncate (messageText m.content) SYSTEM_CAP).getD []

/-- What may go into the history, the newest first. -/
def newestEntries (messages : List Message) : List (String × Text) :=
  ((messages.zipIdx.reverse.filter fun (m, i) => m.role != "system" && some i != latestUser messages).map
    fun (m, _) => (m.role, truncate (messageText m.content) HISTORY_ENTRY_CAP)).filter fun e => !e.2.isEmpty

def historyEntry (e : String × Text) : Json := .object [("role", .string e.1.toList), ("content", .string e.2)]

def textCost (e : String × Text) : Nat := e.2.length

def recentHistory (messages : List Message) (budget : Nat) : List Json :=
  (Budget.fitting textCost budget 0 (newestEntries messages)).reverse.map historyEntry

def historyBudget (messages : List Message) : Nat :=
  STATE_BUDGET - ((latestText messages).length + (systemText messages).length)

def buildState (req : ChatRequest) (ext : Option VertexExt) : Json :=
  .object [
    ("latest_user_message", .string (latestText req.messages)),
    ("recent_history", .array (recentHistory req.messages (historyBudget req.messages))),
    ("system_prompt", .string (systemText req.messages)),
    ("has_tools", .bool (!(req.tools.getD []).isEmpty)),
    ("has_images", .bool (req.hasImages ext))]

/-! ## The characters of a value -/

mutual

/-- The characters of all strings in a value. -/
def Json.chars : Json → Nat
  | .string s => s.length
  | .array xs => Json.elementChars xs
  | .object members => Json.memberChars members
  | .null | .bool _ | .number _ => 0

def Json.elementChars : List Json → Nat
  | [] => 0
  | x :: xs => x.chars + Json.elementChars xs

def Json.memberChars : List (String × Json) → Nat
  | [] => 0
  | (_, x) :: members => x.chars + Json.memberChars members

end

theorem memberChars_insertMember {k : String} {members : List (String × Json)} (v : Json)
    (h : members.lookup k = none) :
    Json.memberChars (Json.insertMember k v members) = Json.memberChars members + v.chars := by
  induction members with
  | nil => simp [Json.insertMember, Json.memberChars]
  | cons m members ih =>
    obtain ⟨k', x⟩ := m
    rw [List.lookup_cons] at h
    by_cases hk : k = k'
    · simp [hk] at h
    · rw [beq_eq_false_iff_ne.mpr hk] at h
      rw [Json.insertMember, if_neg hk, Json.memberChars, Json.memberChars, ih h]
      omega

def entryChars (e : String × Text) : Nat := e.1.toList.length + e.2.length

theorem chars_history (entries : List (String × Text)) :
    (Json.array (entries.map historyEntry)).chars = Budget.total entryChars entries := by
  rw [Json.chars]
  induction entries with
  | nil => rfl
  | cons e entries ih =>
    rw [List.map_cons, Json.elementChars, ih, Budget.total_cons]
    simp [historyEntry, Json.chars, Json.memberChars, entryChars]

theorem length_headTail_le (s : Text) (cap : Nat) : (headTail s cap).length ≤ cap + 3 := by
  unfold headTail
  by_cases h : s.length ≤ cap
  · rw [if_pos h]
    omega
  · rw [if_neg h]
    have hline : "\n…\n".toList.length = 3 := by decide
    simp only [List.length_append, List.length_take, List.length_drop, hline]
    omega

theorem length_truncate_le (s : Text) (cap : Nat) : (truncate s cap).length ≤ cap :=
  List.length_take_le cap s

theorem length_le_utf8Len (t : Text) : t.length ≤ utf8Len t := by
  induction t with
  | nil => exact Nat.le_refl 0
  | cons c t ih =>
    rw [utf8Len_cons, List.length_cons]
    have := c.utf8Size_pos
    omega

theorem length_latestText_le (messages : List Message) : (latestText messages).length ≤ LATEST_CAP + 3 := by
  unfold latestText
  cases (latestUser messages).bind (messages[·]?) with
  | none => exact Nat.zero_le _
  | some m => exact length_headTail_le _ _

theorem length_systemText_le (messages : List Message) : (systemText messages).length ≤ SYSTEM_CAP := by
  unfold systemText
  cases messages.find? fun m => m.role == "system" with
  | none => exact Nat.zero_le _
  | some m => exact length_truncate_le _ _

theorem chars_buildState (req : ChatRequest) (ext : Option VertexExt) :
    (buildState req ext).chars = (latestText req.messages).length +
      Budget.total entryChars (Budget.fitting textCost (historyBudget req.messages) 0 (newestEntries req.messages)) +
      (systemText req.messages).length := by
  rw [buildState, recentHistory]
  simp only [Json.chars.eq_3, Json.memberChars, chars_history, Budget.total_reverse]
  simp only [Json.chars]
  omega

/-- The texts of the two messages leave room for a history. -/
theorem chars_buildState_le_iff (req : ChatRequest) (ext : Option VertexExt) :
    (buildState req ext).chars ≤ STATE_BUDGET ↔
      Budget.total entryChars (Budget.fitting textCost (historyBudget req.messages) 0 (newestEntries req.messages)) ≤
        historyBudget req.messages := by
  rw [chars_buildState]
  have hl := length_latestText_le req.messages
  have hs := length_systemText_le req.messages
  have hroom : LATEST_CAP + 3 + SYSTEM_CAP ≤ STATE_BUDGET := by decide
  unfold historyBudget
  omega

/-! ## The state of a turn -/

def capped (e : String × Text) : String × Text := (e.1, truncate e.2 HISTORY_ENTRY_CAP)

def harnessCost (e : String × Text) : Nat := utf8Len e.2 + utf8Len e.1.toList + 24

theorem historyWithin_eq (budget used : Nat) (entries : List (String × Text)) :
    historyWithin budget used entries =
      (Budget.fitting harnessCost budget used (entries.map capped)).map historyEntry := by
  induction entries generalizing used with
  | nil => rfl
  | cons e entries ih =>
    obtain ⟨role, content⟩ := e
    rw [historyWithin, List.map_cons, Budget.fitting]
    by_cases h : used + harnessCost (capped (role, content)) ≤ budget
    · rw [if_pos h, List.map_cons, ← ih]
      exact if_pos h
    · rw [if_neg h]
      exact if_neg h

def harnessSystem (req : UhpStateInput) (harness : ConfiguredHarness) : Option Text :=
  combinedSystem harness.systemPrompt.toList req.instructions

def harnessBudget (req : UhpStateInput) (harness : ConfiguredHarness) : Nat :=
  STATE_BUDGET - (utf8Len (headTail req.latestUserMessage LATEST_CAP) +
    ((harnessSystem req harness).map utf8Len).getD 0 + 512)

def harnessHistory (req : UhpStateInput) (harness : ConfiguredHarness) : List (String × Text) :=
  Budget.fitting harnessCost (harnessBudget req harness) 0 (req.recentHistory.reverse.map capped)

theorem length_combinedSystem_le (systemPrompt : Text) (instructions : Option Text) :
    ((combinedSystem systemPrompt instructions).map List.length).getD 0 ≤ SYSTEM_CAP := by
  unfold combinedSystem
  split
  · exact Nat.zero_le _
  · exact length_truncate_le _ _
  · exact length_truncate_le _ _
  · exact length_truncate_le _ _

theorem chars_buildHarnessState (req : UhpStateInput) (harness : ConfiguredHarness) :
    (buildHarnessState req harness).chars = (headTail req.latestUserMessage LATEST_CAP).length +
      Budget.total entryChars (harnessHistory req harness) +
      ((harnessSystem req harness).map List.length).getD 0 := by
  have hhist : (Json.array (historyWithin (harnessBudget req harness) 0 req.recentHistory.reverse).reverse).chars =
      Budget.total entryChars (harnessHistory req harness) := by
    rw [historyWithin_eq, ← List.map_reverse, chars_history, Budget.total_reverse]
    rfl
  unfold harnessBudget at hhist
  unfold buildHarnessState
  rw [← harnessSystem]
  cases h : harnessSystem req harness with
  | none =>
    rw [h] at hhist
    simp only [Json.chars.eq_3, Json.memberChars, hhist]
    simp [Json.chars, Json.elementChars, num]
  | some sys =>
    rw [h] at hhist
    simp only [Json.set, Json.membersOf, Json.chars.eq_3]
    rw [memberChars_insertMember _ rfl]
    simp only [Json.memberChars, hhist]
    simp [Json.chars, Json.elementChars, num]

/-! ## The budget -/

theorem entryChars_le_harnessCost (e : String × Text) : entryChars e ≤ harnessCost e := by
  have hr := length_le_utf8Len e.1.toList
  have ht := length_le_utf8Len e.2
  unfold entryChars harnessCost
  omega

/-- Bytes bound characters. Where the remainder saturates, nothing of the
history fits and the caps alone stay within the budget. -/
theorem chars_buildHarnessState_le (req : UhpStateInput) (harness : ConfiguredHarness) :
    (buildHarnessState req harness).chars ≤ STATE_BUDGET := by
  have hkept : Budget.total entryChars (harnessHistory req harness) ≤ harnessBudget req harness := by
    unfold harnessHistory
    apply Nat.le_trans (Budget.total_le _ fun e _ => entryChars_le_harnessCost e)
    exact (Budget.longest_fitting _ _ _).fits
  have hlatest := length_headTail_le req.latestUserMessage LATEST_CAP
  have hbytes := length_le_utf8Len (headTail req.latestUserMessage LATEST_CAP)
  have hsystem := length_combinedSystem_le harness.systemPrompt.toList req.instructions
  have hsysBytes : ((harnessSystem req harness).map List.length).getD 0 ≤
      ((harnessSystem req harness).map utf8Len).getD 0 := by
    cases harnessSystem req harness with
    | none => exact Nat.le_refl 0
    | some sys => exact length_le_utf8Len sys
  rw [chars_buildHarnessState]
  rw [← harnessSystem] at hsystem
  unfold harnessBudget at hkept
  have hroom : LATEST_CAP + 3 + SYSTEM_CAP ≤ STATE_BUDGET := by decide
  omega

/-- `state` holds the longest run of `newest` within `budget`, the oldest first. -/
def HoldsNewest (cost : String × Text → Nat) (budget : Nat) (newest : List (String × Text)) (state : Json) : Prop :=
  ∃ kept, Budget.Longest cost budget newest kept ∧
    state.get? "recent_history" = some (.array (kept.reverse.map historyEntry))

/-- Wherever the texts of the newest entries fit what is left, their roles fit
beside them. -/
def RolesFit (messages : List Message) : Prop :=
  ∀ p, p <+: newestEntries messages → Budget.total textCost p ≤ historyBudget messages →
    Budget.total entryChars p ≤ historyBudget messages

theorem holdsNewest_buildState (req : ChatRequest) (ext : Option VertexExt) :
    HoldsNewest textCost (historyBudget req.messages) (newestEntries req.messages) (buildState req ext) :=
  ⟨_, Budget.longest_fitting _ _ _, rfl⟩

theorem holdsNewest_buildHarnessState (req : UhpStateInput) (harness : ConfiguredHarness) :
    HoldsNewest harnessCost (harnessBudget req harness) (req.recentHistory.reverse.map capped)
      (buildHarnessState req harness) := by
  refine ⟨harnessHistory req harness, Budget.longest_fitting _ _ _, ?_⟩
  rw [harnessHistory, List.map_reverse, ← historyWithin_eq]
  unfold buildHarnessState harnessBudget harnessSystem
  cases combinedSystem harness.systemPrompt.toList req.instructions with
  | none => rfl
  | some sys => rfl

theorem state_within_budget (req : ChatRequest) (ext : Option VertexExt) (input : UhpStateInput)
    (harness : ConfiguredHarness) :
    (HoldsNewest textCost (historyBudget req.messages) (newestEntries req.messages) (buildState req ext) ∧
      ((buildState req ext).chars ≤ STATE_BUDGET ↔ RolesFit req.messages)) ∧
    HoldsNewest harnessCost (harnessBudget input harness) (input.recentHistory.reverse.map capped)
      (buildHarnessState input harness) ∧
    (buildHarnessState input harness).chars ≤ STATE_BUDGET := by
  refine ⟨⟨holdsNewest_buildState req ext, ?_⟩, holdsNewest_buildHarnessState input harness,
    chars_buildHarnessState_le input harness⟩
  rw [chars_buildState_le_iff]
  exact (Budget.longest_fitting textCost (historyBudget req.messages) (newestEntries req.messages)).total_le_iff

theorem latestUser_eq_none {messages : List Message} (h : ∀ m ∈ messages, m.role ≠ "user") :
    latestUser messages = none := by
  unfold latestUser
  rw [List.find?_eq_none.mpr, Option.map_none]
  intro e he
  simp [h e.1 (List.fst_mem_of_mem_zipIdx (List.mem_reverse.mp he))]

theorem historyBudget_eq {messages : List Message} (hu : ∀ m ∈ messages, m.role ≠ "user")
    (hs : ∀ m ∈ messages, m.role ≠ "system") : historyBudget messages = STATE_BUDGET := by
  unfold historyBudget latestText systemText
  rw [latestUser_eq_none hu, List.find?_eq_none.mpr]
  · rfl
  · intro m hm
    simp [hs m hm]

theorem newestEntries_replicate (n : Nat) {m : Message} (hs : m.role ≠ "system") (hu : m.role ≠ "user")
    (ht : truncate (messageText m.content) HISTORY_ENTRY_CAP ≠ []) :
    newestEntries (List.replicate n m) =
      List.replicate n (m.role, truncate (messageText m.content) HISTORY_ENTRY_CAP) := by
  have hm : ∀ e ∈ (List.replicate n m).zipIdx.reverse, e.1 = m := fun e he =>
    List.eq_of_mem_replicate (List.fst_mem_of_mem_zipIdx (List.mem_reverse.mp he))
  unfold newestEntries
  rw [latestUser_eq_none fun m' hm' => List.eq_of_mem_replicate hm' ▸ hu, List.filter_eq_self.mpr,
    List.filter_eq_self.mpr, List.eq_replicate_iff]
  · refine ⟨by simp, fun b hb => ?_⟩
    obtain ⟨⟨m', i⟩, he, rfl⟩ := List.mem_map.mp hb
    obtain rfl : m' = m := hm _ he
    rfl
  · intro e he
    simp [hm e he, hs]
  · intro b hb
    obtain ⟨e, he, rfl⟩ := List.mem_map.mp hb
    simp [hm e (List.mem_of_mem_filter he), ht]

def terseReplies : ChatRequest := { messages := List.replicate 3000 { role := "assistant", content := str "ok" } }

/-- Three thousand replies of two characters, each under a role of nine. -/
theorem terse_replies_exceed : ¬ (buildState terseReplies none).chars ≤ STATE_BUDGET := by
  have hentries : newestEntries terseReplies.messages = List.replicate 3000 ("assistant", "ok".toList) :=
    newestEntries_replicate 3000 (by decide) (by decide) (by decide)
  have hrole : ∀ m ∈ terseReplies.messages, m.role = "assistant" := fun m hm => by
    rw [List.eq_of_mem_replicate hm]
  have hbudget : historyBudget terseReplies.messages = STATE_BUDGET :=
    historyBudget_eq (fun m hm => by simp [hrole m hm]) fun m hm => by simp [hrole m hm]
  rw [chars_buildState_le_iff, hbudget, hentries, (Budget.longest_fitting _ _ _).eq_of_fits]
  · rw [Budget.total_replicate]
    decide
  · rw [Budget.total_replicate]
    decide

end SynapseGateway
