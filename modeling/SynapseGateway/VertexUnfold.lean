import SynapseGateway.VertexNativeSound

/-!
# The native decoder as a stream

The decoder is polled for one item at a time and reads on only when it has none left.
What it yields depends on the bytes alone. Its tool calls are numbered from 0, and an
end says `tool_calls` when one of them came before it.
-/

namespace SynapseGateway

open Utf8 (Text)

/-- The state that `unfold` threads; `inner` is what is still to come of the body. -/
structure DecoderState where
  inner : List (Except String Bytes)
  buf : Bytes := []
  tools : ToolState := {}
  pending : List (Except LegError StreamItem) := []

section
variable (parse : Text → Except String Json)

/-- One poll: the items read already come first, and bytes are read until there is one. -/
def nextItem : (inner : List (Except String Bytes)) → Bytes → ToolState → List (Except LegError StreamItem) →
    Option (Except LegError StreamItem × DecoderState)
  | inner, buf, tools, item :: pending => some (item, ⟨inner, buf, tools, pending⟩)
  | [], _, _, [] => none
  | .error e :: inner, buf, tools, [] => some (.error (.midStream e), ⟨inner, buf, tools, []⟩)
  | .ok bytes :: inner, buf, tools, [] =>
    let (events, buf) := sse.drain (buf ++ bytes)
    let (items, tools) := datasItems parse tools (events.flatMap dataLines)
    nextItem inner buf tools items

def DecoderState.next (s : DecoderState) : Option (Except LegError StreamItem × DecoderState) :=
  nextItem parse s.inner s.buf s.tools s.pending

/-- The first `n` items, fewer if the stream ends before. -/
def DecoderState.take : Nat → DecoderState → List (Except LegError StreamItem)
  | 0, _ => []
  | n + 1, s =>
    match s.next parse with
    | none => []
    | some (item, s) => item :: s.take n

/-- All items that are to come. -/
def DecoderState.items (s : DecoderState) : List (Except LegError StreamItem) :=
  s.pending ++ decodeFrom parse s.buf s.tools s.inner

end

variable {parse : Text → Except String Json}

theorem next_items (s : DecoderState) :
    s.items parse =
      match s.next parse with
      | none => []
      | some (item, s) => item :: s.items parse := by
  obtain ⟨inner, buf, tools, pending⟩ := s
  induction inner generalizing buf tools pending with
  | nil => cases pending <;> rfl
  | cons chunk inner ih =>
    cases pending with
    | cons item pending => rfl
    | nil =>
      cases chunk with
      | error e => rfl
      | ok bytes => exact ih _ _ _

theorem take_items (n : Nat) (s : DecoderState) : s.take parse n = (s.items parse).take n := by
  induction n generalizing s with
  | zero => rfl
  | succ n ih =>
    rw [DecoderState.take, next_items]
    cases s.next parse with
    | none => rfl
    | some next => exact congrArg (next.1 :: ·) (ih next.2)

/-! ## Chunks -/

theorem datasItems_append (tools : ToolState) (xs ys : List Text) :
    datasItems parse tools (xs ++ ys) =
      ((datasItems parse tools xs).1 ++ (datasItems parse (datasItems parse tools xs).2 ys).1,
        (datasItems parse (datasItems parse tools xs).2 ys).2) := by
  induction xs generalizing tools with
  | nil => rfl
  | cons x xs ih =>
    simp only [List.cons_append, datasItems]
    rw [ih]
    simp only [List.append_assoc]

/-- The items of chunks that all arrive are those of the events in their bytes. -/
theorem decodeFrom_chunks (chunks : List Bytes) {buf : Bytes} (tools : ToolState) (hbuf : sse.cut buf = none) :
    decodeFrom parse buf tools (chunks.map .ok) =
      (datasItems parse tools ((sse.drain (buf ++ chunks.flatten)).1.flatMap dataLines)).1 := by
  induction chunks generalizing buf tools with
  | nil =>
    rw [List.flatten_nil, List.append_nil, Framing.Cutter.drain_none hbuf]
    rfl
  | cons bytes chunks ih =>
    have hcut := Framing.Cutter.cut_drain (k := sse) (Nat.le_refl (buf ++ bytes).length)
    rw [List.flatten_cons, ← List.append_assoc, Framing.Cutter.drain_append _ (Nat.le_refl (buf ++ bytes).length),
      List.flatMap_append, datasItems_append, List.map_cons, decodeFrom]
    simp only
    rw [ih _ hcut]

/-- The data lines of the complete events of some bytes. -/
def eventData (bytes : Bytes) : List Text := (sse.drain bytes).1.flatMap dataLines

def decoderOf (chunks : List Bytes) : DecoderState where
  inner := chunks.map .ok

theorem decoder_take (chunks : List Bytes) (n : Nat) :
    (decoderOf chunks).take parse n = ((datasItems parse {} (eventData chunks.flatten)).1).take n := by
  rw [take_items]
  exact congrArg (List.take n) (decodeFrom_chunks chunks {} rfl)

/-! ## Tool calls -/

def StreamItem.toolIndex : StreamItem → Option Nat
  | .toolCallDelta index _ _ _ => some index
  | _ => none

def itemToolIndex : Except LegError StreamItem → Option Nat
  | .ok item => item.toolIndex
  | .error _ => none

/-- The items that have an index are numbered from `n` up to `m`. -/
def Numbered (index : α → Option Nat) (n : Nat) (items : List α) (m : Nat) : Prop :=
  ∃ k, items.filterMap index = List.range' n k ∧ m = n + k

theorem numbered_none {index : α → Option Nat} (n : Nat) {items : List α} (h : items.filterMap index = []) :
    Numbered index n items n := ⟨0, h, rfl⟩

theorem Numbered.append {index : α → Option Nat} {n m r : Nat} {xs ys : List α} (hx : Numbered index n xs m)
    (hy : Numbered index m ys r) : Numbered index n (xs ++ ys) r := by
  obtain ⟨k, hk, rfl⟩ := hx
  obtain ⟨l, hl, rfl⟩ := hy
  refine ⟨k + l, ?_, Nat.add_assoc n k l⟩
  rw [List.filterMap_append, hk, hl, List.range'_append_1]

theorem partToItems_numbered (p : Json) (n : Nat) :
    Numbered StreamItem.toolIndex n (partToItems p n).1 (partToItems p n).2 := by
  unfold partToItems
  split
  · exact numbered_none n rfl
  · split
    · split
      · exact numbered_none n rfl
      · exact numbered_none n rfl
    · split
      · exact ⟨1, rfl, rfl⟩
      · exact numbered_none n rfl

theorem partsToItems_numbered (parts : List Json) (n : Nat) :
    Numbered StreamItem.toolIndex n (partsToItems parts n).1 (partsToItems parts n).2 := by
  induction parts generalizing n with
  | nil => exact numbered_none n rfl
  | cons p parts ih => exact (partToItems_numbered p n).append (ih _)

theorem vertexChunkToItems_numbered (chunk : Json) (n : Nat) :
    Numbered StreamItem.toolIndex n (vertexChunkToItems chunk n).1 (vertexChunkToItems chunk n).2 := by
  have hparts := partsToItems_numbered
    (((((chunk.key "candidates").index 0).key "content").key "parts").asArray.getD []) n
  unfold vertexChunkToItems
  cases finishOf chunk with
  | none => exact hparts
  | some finish => exact hparts.append (numbered_none _ rfl)

theorem note_toolIndex (sawTool : Bool) (item : StreamItem) :
    (ToolState.note sawTool item).1.toolIndex = item.toolIndex := by
  cases item <;> rfl

theorem noteAll_indices (sawTool : Bool) (items : List StreamItem) :
    (noteAll sawTool items).1.filterMap StreamItem.toolIndex = items.filterMap StreamItem.toolIndex := by
  induction items generalizing sawTool with
  | nil => rfl
  | cons item items ih => simp only [noteAll, List.filterMap_cons, note_toolIndex, ih]

theorem dataItems_numbered (parse : Text → Except String Json) (tools : ToolState) (data : Text) :
    Numbered itemToolIndex tools.toolIndex (dataItems parse tools data).1 (dataItems parse tools data).2.toolIndex := by
  unfold dataItems
  cases parse data with
  | error e => exact numbered_none _ rfl
  | ok json =>
    obtain ⟨k, hk, hn⟩ := vertexChunkToItems_numbered json tools.toolIndex
    refine ⟨k, ?_, hn⟩
    simp only
    rw [List.filterMap_map]
    exact (noteAll_indices _ _).trans hk

/-- Tool calls are numbered on from where the state stands. -/
theorem datasItems_numbered (parse : Text → Except String Json) (tools : ToolState) (datas : List Text) :
    Numbered itemToolIndex tools.toolIndex (datasItems parse tools datas).1
      (datasItems parse tools datas).2.toolIndex := by
  induction datas generalizing tools with
  | nil => exact numbered_none _ rfl
  | cons data datas ih => exact (dataItems_numbered parse tools data).append (ih _)

theorem prefix_range {l : List Nat} {n : Nat} (h : l <+: List.range n) : l = List.range l.length := by
  have hlen : l.length ≤ n := by simpa using h.length_le
  have htake := List.prefix_iff_eq_take.mp h
  rwa [List.take_range, Nat.min_eq_left hlen] at htake

/-! ## The finish reason -/

def isToolItem (item : Except LegError StreamItem) : Bool := (itemToolIndex item).isSome

/-- Every end says `tool_calls` exactly when a tool call came before it, be it among these
items or before them. -/
def Marked : Bool → List (Except LegError StreamItem) → Prop
  | _, [] => True
  | sawTool, item :: items =>
    (∀ i j finish, item = .ok (.done i j finish) → (finish = .toolCalls ↔ sawTool = true)) ∧
      Marked (sawTool || isToolItem item) items

theorem marked_append (sawTool : Bool) (xs ys : List (Except LegError StreamItem)) :
    Marked sawTool (xs ++ ys) ↔ Marked sawTool xs ∧ Marked (sawTool || xs.any isToolItem) ys := by
  induction xs generalizing sawTool with
  | nil => simp [Marked]
  | cons x xs ih => rw [List.cons_append, Marked, Marked, ih, and_assoc, List.any_cons, Bool.or_assoc]

theorem noteAll_marked (sawTool : Bool) (items : List StreamItem) (h : ∀ i j, .done i j .toolCalls ∉ items) :
    Marked sawTool ((noteAll sawTool items).1.map .ok) ∧
      (noteAll sawTool items).2 = (sawTool || ((noteAll sawTool items).1.map .ok).any isToolItem) := by
  induction items generalizing sawTool with
  | nil => exact ⟨trivial, (Bool.or_false _).symm⟩
  | cons item items ih =>
    have htail : ∀ i j, .done i j .toolCalls ∉ items := fun i j hm => h i j (List.mem_cons_of_mem item hm)
    have hhead : ∀ i j, item ≠ .done i j .toolCalls := fun i j he => h i j (he ▸ List.mem_cons_self)
    obtain ⟨hmarked, hsaw⟩ := ih (ToolState.note sawTool item).2 htail
    have hnote : (ToolState.note sawTool item).2 = (sawTool || isToolItem (.ok (ToolState.note sawTool item).1)) := by
      cases item with
      | toolCallDelta index id name args => exact (Bool.or_true _).symm
      | delta | done | blocked => exact (Bool.or_false _).symm
    simp only [noteAll, List.map_cons, List.any_cons]
    refine ⟨⟨?_, ?_⟩, ?_⟩
    · intro i j finish he
      cases item with
      | done i' j' finish' =>
        have hne : finish' ≠ .toolCalls := fun hf => hhead i' j' (by rw [hf])
        cases he
        cases sawTool with
        | true => exact ⟨fun _ => rfl, fun _ => rfl⟩
        | false => exact ⟨fun hf => absurd hf hne, fun hs => by cases hs⟩
      | delta | toolCallDelta | blocked => cases he
    · rw [← hnote]
      exact hmarked
    · rw [hsaw, hnote, Bool.or_assoc]

theorem vertexChunkToItems_finish (chunk : Json) (n i j : Nat) :
    .done i j .toolCalls ∉ (vertexChunkToItems chunk n).1 := by
  have hparts : ∀ parts n, .done i j .toolCalls ∉ (partsToItems parts n).1 := by
    intro parts n hmem
    have hdone := partsToItems_done parts n
    rw [List.any_eq_false] at hdone
    exact hdone _ hmem rfl
  unfold vertexChunkToItems
  cases finishOf chunk with
  | none => exact hparts _ n
  | some finish =>
    simp only
    intro hmem
    rcases List.mem_append.mp hmem with hmem | hmem
    · exact hparts _ n hmem
    · have hne : mapVertexFinish finish ≠ .toolCalls := by
        unfold mapVertexFinish
        split <;> decide
      exact hne (StreamItem.done.inj (List.mem_singleton.mp hmem)).2.2.symm

theorem dataItems_marked (parse : Text → Except String Json) (tools : ToolState) (data : Text) :
    Marked tools.sawTool (dataItems parse tools data).1 ∧
      (dataItems parse tools data).2.sawTool = (tools.sawTool || (dataItems parse tools data).1.any isToolItem) := by
  unfold dataItems
  cases parse data with
  | error e =>
    refine ⟨⟨?_, trivial⟩, (Bool.or_false _).symm⟩
    intro i j finish he
    cases he
  | ok json => exact noteAll_marked tools.sawTool _ (vertexChunkToItems_finish json tools.toolIndex)

theorem datasItems_marked (parse : Text → Except String Json) (tools : ToolState) (datas : List Text) :
    Marked tools.sawTool (datasItems parse tools datas).1 := by
  induction datas generalizing tools with
  | nil => trivial
  | cons data datas ih =>
    obtain ⟨hmarked, hsaw⟩ := dataItems_marked parse tools data
    have hrest := ih (dataItems parse tools data).2
    rw [hsaw] at hrest
    exact (marked_append _ _ _).mpr ⟨hmarked, hrest⟩

theorem Marked.finish {sawTool : Bool} {pre post : List (Except LegError StreamItem)} {i j : Nat}
    {finish : FinishReason} (h : Marked sawTool (pre ++ .ok (.done i j finish) :: post)) :
    finish = .toolCalls ↔ (sawTool || pre.any isToolItem) = true :=
  ((marked_append _ _ _).mp h).2.1 i j finish rfl

/-- What is yielded depends on the bytes alone; in it the tool calls are numbered from 0 and
an end says `tool_calls` exactly when a tool call came before it. -/
theorem decoder_chunking (parse : Text → Except String Json) {chunks₁ chunks₂ : List Bytes}
    (h : chunks₁.flatten = chunks₂.flatten) (n : Nat) :
    (decoderOf chunks₁).take parse n = (decoderOf chunks₂).take parse n ∧
      (∃ k, ((decoderOf chunks₁).take parse n).filterMap itemToolIndex = List.range k) ∧
      ∀ pre i j finish post, (decoderOf chunks₁).take parse n = pre ++ .ok (.done i j finish) :: post →
        (finish = .toolCalls ↔ pre.any isToolItem = true) := by
  rw [decoder_take, decoder_take, ← h]
  refine ⟨rfl, ?_, ?_⟩
  · obtain ⟨k, hk, -⟩ := datasItems_numbered parse {} (eventData chunks₁.flatten)
    refine ⟨_, prefix_range (n := k) ?_⟩
    rw [List.range_eq_range', ← hk]
    exact (List.take_prefix n _).filterMap itemToolIndex
  · intro pre i j finish post htake
    have hmarked := datasItems_marked parse {} (eventData chunks₁.flatten)
    rw [← List.take_append_drop n (datasItems parse {} (eventData chunks₁.flatten)).1, htake, List.append_assoc] at hmarked
    exact hmarked.finish

/-! ## An event in pieces -/

def brokenEvent : Text := "data: é\r\n\r\n".toList

def parseNothing (_ : Text) : Except String Json := .error "expected value at line 1 column 1"

/-- Cut inside `é` and between the two ends of its line. -/
theorem brokenEvent_pieces :
    (decoderOf [utf8Bytes brokenEvent]).take parseNothing 2 =
      (decoderOf [(utf8Bytes brokenEvent).take 7, [], ((utf8Bytes brokenEvent).drop 7).take 2,
        (utf8Bytes brokenEvent).drop 9]).take parseNothing 2 :=
  (decoder_chunking parseNothing (by decide) 2).1

end SynapseGateway
