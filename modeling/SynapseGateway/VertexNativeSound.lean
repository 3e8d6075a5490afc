import SynapseGateway.VertexNative

/-!
# What the native decoder yields

Which items a body yields does not depend on how its bytes are chunked: they
are those of the data lines of the complete events in the bytes received.
-/

namespace SynapseGateway

open Utf8 (Text)

/-! ## One chunk -/

theorem partToItems_done (p : Json) (n : Nat) : (partToItems p n).1.any StreamItem.isDone = false := by
  unfold partToItems
  split
  · rfl
  · split
    · split <;> rfl
    · split <;> rfl

theorem partsToItems_done (parts : List Json) (n : Nat) : (partsToItems parts n).1.any StreamItem.isDone = false := by
  induction parts generalizing n with
  | nil => rfl
  | cons p parts ih => simp only [partsToItems, List.any_append, partToItems_done, ih, Bool.or_self]

theorem vertexChunkToItems_done (chunk : Json) (n : Nat) :
    (vertexChunkToItems chunk n).1.any StreamItem.isDone = (finishOf chunk).isSome := by
  unfold vertexChunkToItems
  cases hf : finishOf chunk with
  | some finish =>
    simp only
    rw [List.any_append, partsToItems_done]
    rfl
  | none =>
    simp only
    rw [partsToItems_done]
    rfl

theorem note_isDone (sawTool : Bool) (item : StreamItem) : (ToolState.note sawTool item).1.isDone = item.isDone := by
  cases item <;> rfl

theorem noteAll_isDone (sawTool : Bool) (items : List StreamItem) :
    (noteAll sawTool items).1.any StreamItem.isDone = items.any StreamItem.isDone := by
  induction items generalizing sawTool with
  | nil => rfl
  | cons item items ih => simp only [noteAll, List.any_cons, note_isDone, ih]

variable (parse : Text → Except String Json)

def Finishes (data : Text) : Prop := ∃ json, parse data = .ok json ∧ (finishOf json).isSome

theorem dataItems_done (st : ToolState) (data : Text) :
    (dataItems parse st data).1.any isDoneItem = true ↔ Finishes parse data := by
  unfold dataItems Finishes
  cases parse data with
  | error e => simp [isDoneItem]
  | ok json =>
    simp only [List.any_map]
    rw [show (isDoneItem ∘ Except.ok : StreamItem → Bool) = StreamItem.isDone from rfl, noteAll_isDone,
      vertexChunkToItems_done]
    simp

theorem dataItems_error (st : ToolState) (data : Text) :
    (dataItems parse st data).1.any isErrorItem = true ↔ ∃ e, parse data = .error e := by
  unfold dataItems
  cases parse data with
  | error e => simp [isErrorItem]
  | ok json => simp [isErrorItem]

/-! ## A body -/

def bodyBytes (body : List (Except String Bytes)) : Bytes := (body.filterMap Except.toOption).flatten

/-- The data lines of the complete events of a body. -/
def bodyData (body : List (Except String Bytes)) : List Text := (sse.drain (bodyBytes body)).1.flatMap dataLines

section
variable {parse} {P : Except LegError StreamItem → Bool} {R : Text → Prop}

theorem datasItems_any (h : ∀ st data, (dataItems parse st data).1.any P = true ↔ R data) (st : ToolState)
    (datas : List Text) : (datasItems parse st datas).1.any P = true ↔ ∃ data ∈ datas, R data := by
  induction datas generalizing st with
  | nil => simp [datasItems]
  | cons data datas ih =>
    simp only [datasItems, List.any_append, Bool.or_eq_true, h, ih, List.mem_cons, exists_eq_or_imp]

theorem decodeFrom_any (h : ∀ st data, (dataItems parse st data).1.any P = true ↔ R data) :
    ∀ (body : List (Except String Bytes)) {buf : Bytes} (st : ToolState), sse.cut buf = none →
      ((decodeFrom parse buf st body).any P = true ↔ (∃ e, .error e ∈ body ∧ P (.error (.midStream e)) = true) ∨
        ∃ data ∈ (sse.drain (buf ++ bodyBytes body)).1.flatMap dataLines, R data)
  | [], buf, st, hbuf => by
    rw [bodyBytes, List.filterMap_nil, List.flatten_nil, List.append_nil, Framing.Cutter.drain_none hbuf]
    simp [decodeFrom]
  | .error e :: body, buf, st, hbuf => by
    have ih := decodeFrom_any h body st hbuf
    rw [decodeFrom, List.any_cons, Bool.or_eq_true, ih, show bodyBytes (.error e :: body) = bodyBytes body from rfl]
    simp only [List.mem_cons, or_and_right, exists_or, Except.error.injEq, exists_eq_left, or_assoc]
  | .ok bytes :: body, buf, st, hbuf => by
    have hcut := Framing.Cutter.cut_drain (k := sse) (Nat.le_refl (buf ++ bytes).length)
    have ih := fun st => decodeFrom_any h body st hcut
    have hbytes : bodyBytes (.ok bytes :: body) = bytes ++ bodyBytes body := rfl
    rw [decodeFrom, hbytes, ← List.append_assoc,
      Framing.Cutter.drain_append _ (Nat.le_refl (buf ++ bytes).length)]
    simp only [List.any_append, Bool.or_eq_true, datasItems_any h, ih, List.flatMap_append, List.mem_append,
      List.mem_cons, reduceCtorEq, false_or, or_and_right, exists_or]
    exact or_left_comm

end

/-- A body yields a terminal item exactly when it holds a complete event that
ends the turn. -/
theorem streamGenerate_done (body : List (Except String Bytes)) :
    (streamGenerate parse body).any isDoneItem = true ↔ ∃ data ∈ bodyData body, Finishes parse data := by
  unfold streamGenerate
  rw [decodeFrom_any (dataItems_done parse) body {} rfl]
  simp [isDoneItem, bodyData]

/-- A body yields an error exactly when the transport failed or a complete
event holds data that is not JSON. -/
theorem streamGenerate_error (body : List (Except String Bytes)) :
    (streamGenerate parse body).any isErrorItem = true ↔
      (∃ e, .error e ∈ body) ∨ ∃ data ∈ bodyData body, ∃ e, parse data = .error e := by
  unfold streamGenerate
  rw [decodeFrom_any (dataItems_error parse) body {} rfl]
  simp [isErrorItem, bodyData]

end SynapseGateway
