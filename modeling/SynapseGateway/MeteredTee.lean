import SynapseGateway.LossyPieces
import SynapseGateway.PassthroughSound

/-!
# The metered stream as a tee

A streamed response passes to the client as it came, and is metered by the lines of
its text, however the bytes were cut on the way.
-/

namespace SynapseGateway

open Utf8 (Text)

/-! ## The lines of a text -/

@[elab_as_elim]
theorem line_induction {P : Text → Prop} (last : ∀ l, '\n' ∉ l → P l)
    (line : ∀ l t, '\n' ∉ l → P t → P (l ++ '\n' :: t)) (t : Text) : P t := by
  suffices hgen : ∀ t l, '\n' ∉ l → P (l ++ t) from hgen t [] (by simp)
  intro t
  induction t with
  | nil =>
    intro l hl
    rw [List.append_nil]
    exact last l hl
  | cons c t ih =>
    intro l hl
    by_cases hc : c = '\n'
    · rw [hc]
      exact line l t hl (ih [] (by simp))
    · have hnext := ih (l ++ [c]) (by simpa [hl] using Ne.symm hc)
      rwa [List.append_assoc] at hnext

theorem linesFrom_append (acc : Text) {l : Text} (hl : '\n' ∉ l) (t : Text) :
    linesFrom acc (l ++ t) = linesFrom (l.reverse ++ acc) t := by
  induction l generalizing acc with
  | nil => rfl
  | cons c l ih =>
    have hc : c ≠ '\n' := fun h => hl (h ▸ List.mem_cons_self)
    rw [List.cons_append, linesFrom.eq_4 _ _ _ hc, ih _ fun h => hl (List.mem_cons_of_mem c h)]
    simp

theorem lines_open {l : Text} (hl : '\n' ∉ l) : lines l = if l = [] then [] else [l] := by
  have h := linesFrom_append [] hl []
  rw [List.append_nil, List.append_nil] at h
  rw [lines, h, linesFrom]
  cases l with
  | nil => rfl
  | cons c l => simp

/-- A line that is ended comes without its newline and the carriage return before it. -/
theorem lines_line {l : Text} (hl : '\n' ∉ l) (t : Text) :
    ∃ l' tail, l = l' ++ tail ∧ (∀ c ∈ tail, c = '\r') ∧ lines (l ++ '\n' :: t) = l' :: lines t := by
  rw [lines, linesFrom_append [] hl, List.append_nil]
  obtain ⟨back, rfl⟩ : ∃ back : Text, l = back.reverse := ⟨l.reverse, by rw [List.reverse_reverse]⟩
  rw [List.reverse_reverse]
  by_cases hcr : ∃ back', back = '\r' :: back'
  · obtain ⟨back', rfl⟩ := hcr
    exact ⟨back'.reverse, ['\r'], by simp, by simp, rfl⟩
  · refine ⟨back.reverse, [], by simp, by simp, ?_⟩
    exact linesFrom.eq_3 _ _ fun back' h => hcr ⟨back', h⟩

/-! ## Whitespace at the end of a line -/

theorem trimEnd_split (l : Text) : ∃ tail, l = trimEnd l ++ tail ∧ ∀ c ∈ tail, isWhitespace c = true := by
  refine ⟨(l.reverse.takeWhile isWhitespace).reverse, ?_, ?_⟩
  · rw [trimEnd, ← List.reverse_append, List.takeWhile_append_dropWhile, List.reverse_reverse]
  · intro c hc
    exact List.all_eq_true.mp List.all_takeWhile c (List.mem_reverse.mp hc)

theorem trim_append {d tail : Text} (h : ∀ c ∈ tail, isWhitespace c = true) : trim (d ++ tail) = trim d := by
  have hr : ∀ c ∈ tail.reverse, isWhitespace c = true := fun c hc => h c (List.mem_reverse.mp hc)
  induction d with
  | nil =>
    have hnone : (tail ++ []).dropWhile isWhitespace = [] := List.dropWhile_append_of_pos h
    rw [List.append_nil] at hnone
    rw [List.nil_append, trim, hnone]
    rfl
  | cons c d ih =>
    by_cases hc : isWhitespace c = true
    · rw [trim, trim, List.cons_append, List.dropWhile_cons_of_pos hc, List.dropWhile_cons_of_pos hc]
      exact ih
    · rw [trim, trim, List.cons_append, List.dropWhile_cons_of_neg hc, List.dropWhile_cons_of_neg hc,
        ← List.cons_append, List.reverse_append, List.dropWhile_append_of_pos hr]

theorem trimEnd_front {p d : Text} {c : Char} (hc : isWhitespace c = false) :
    trimEnd (p ++ c :: d) = p ++ c :: trimEnd d := by
  have hback : (p ++ c :: d).reverse = d.reverse ++ c :: p.reverse := by simp
  have hstop : (c :: p.reverse).dropWhile isWhitespace = c :: p.reverse :=
    List.dropWhile_cons_of_neg (by rw [hc]; decide)
  rw [trimEnd, trimEnd, hback, List.dropWhile_append, hstop]
  by_cases hd : (d.reverse.dropWhile isWhitespace).isEmpty = true
  · rw [if_pos hd, List.isEmpty_iff.mp hd]
    simp
  · rw [if_neg hd]
    simp

section
variable (serde : SerdeJson)

theorem trimEnd_data (d : Text) : trimEnd ("data:".toList ++ d) = "data:".toList ++ trimEnd d :=
  trimEnd_front (p := "data".toList) (c := ':') (by decide)

theorem observeSseLine_trimEnd (u : PassthroughUsageGuard) (l : Text) :
    u.observeSseLine serde (trimEnd l) = u.observeSseLine serde l := by
  by_cases hdata : "data:".toList <+: l
  · obtain ⟨d, rfl⟩ := hdata
    obtain ⟨tail, hd, htail⟩ := trimEnd_split d
    have htrim : trim d = trim (trimEnd d) := by
      conv_lhs => rw [hd]
      exact trim_append htail
    rw [trimEnd_data, PassthroughUsageGuard.observeSseLine, PassthroughUsageGuard.observeSseLine, stripPrefix_append,
      stripPrefix_append]
    simp only
    rw [htrim]
  · have hno : ¬ "data:".toList <+: trimEnd l := fun h => hdata (h.trans (trimEnd_le l))
    rw [PassthroughUsageGuard.observeSseLine, PassthroughUsageGuard.observeSseLine, stripPrefix_none hdata,
      stripPrefix_none hno]

theorem observeSseLine_ending {l tail : Text} (h : ∀ c ∈ tail, isWhitespace c = true) (u : PassthroughUsageGuard) :
    u.observeSseLine serde (l ++ tail) = u.observeSseLine serde l := by
  rw [← observeSseLine_trimEnd, trimEnd_append h, observeSseLine_trimEnd]

theorem observeText_step {l : Text} (hl : '\n' ∉ l) (t : Text) (u : PassthroughUsageGuard) :
    u.observeText serde (l ++ '\n' :: t) = (u.observeSseLine serde l).observeText serde t := by
  rw [observeText_line hl, observeSseLine_trimEnd, observeSseLine_ending]
  exact List.forall_mem_singleton.mpr (by decide)

theorem observeText_lines (t : Text) (u : PassthroughUsageGuard) :
    u.observeText serde t = (lines t).foldl (fun u line => u.observeSseLine serde line) u := by
  induction t using line_induction generalizing u with
  | last l hl =>
    rw [observeText_open (cutLine_none hl), observeSseLine_trimEnd, lines_open hl]
    by_cases h : l = []
    · subst h
      rfl
    · rw [if_neg h]
      rfl
  | line l t hl ih =>
    obtain ⟨l', tail, rfl, htail, hlines⟩ := lines_line hl t
    have hspace : ∀ c ∈ tail, isWhitespace c = true := fun c hc => htail c hc ▸ by decide
    rw [observeText_step serde hl, observeSseLine_ending serde hspace, hlines, ih]
    rfl

end

/-! ## The payload of a data line -/

def IsVisible (c : Char) : Prop := asciiChar c = some c ∧ isWhitespace c = false

/-- A JSON text, without whitespace around it. -/
structure JsonText (serde : SerdeJson) (p : Text) : Prop where
  first : ∃ c, p.head? = some c ∧ IsVisible c
  last : ∃ c, p.getLast? = some c ∧ IsVisible c
  reads : ∃ v, serde.fromStr p = .ok v

/-- What follows `data:` is a JSON text between ASCII whitespace. -/
def IsPayload (serde : SerdeJson) (data : Text) : Prop :=
  ∃ pad p post, data = pad ++ p ++ post ∧ (∀ c ∈ pad ++ post, asciiChar c = some c ∧ isWhitespace c = true) ∧
    JsonText serde p

/-- An event stream: every `data:` line of it carries a JSON text. -/
def JsonEvents (serde : SerdeJson) (t : Text) : Prop :=
  ∀ line ∈ lines t, ∀ data, stripPrefix "data:".toList line = some data → IsPayload serde data

/-- The counts the guard reads are the same. -/
structure SameUsage (v w : Json) : Prop where
  promptTokenCount : promptTokenCount v = promptTokenCount w
  candidatesTokenCount : candidatesTokenCount v = candidatesTokenCount w
  inputTokens : usageCount "usage" "input_tokens" v = usageCount "usage" "input_tokens" w
  outputTokens : usageCount "usage" "output_tokens" v = usageCount "usage" "output_tokens" w

/-- Replacing characters beyond ASCII in a JSON text, which has them in its strings only,
leaves a JSON text with the same counts. -/
def SerdeJson.CountsSurvive (serde : SerdeJson) : Prop := serde.Keeps Replaced SameUsage

theorem trim_payload {pad p post : Text} (hpad : ∀ c ∈ pad ++ post, isWhitespace c = true)
    (hfirst : ∃ c, p.head? = some c ∧ IsVisible c) (hlast : ∃ c, p.getLast? = some c ∧ IsVisible c) :
    trim (pad ++ p ++ post) = p := by
  obtain ⟨c, hc, -, hvisible⟩ := hfirst
  obtain ⟨d, hd, -, hvisible'⟩ := hlast
  obtain ⟨rest, rfl⟩ := List.head?_eq_some_iff.mp hc
  obtain ⟨front, hfront⟩ := List.getLast?_eq_some_iff.mp hd
  rw [trim_append fun x hx => hpad x (List.mem_append_right pad hx), trim,
    List.dropWhile_append_of_pos fun x hx => hpad x (List.mem_append_left post hx),
    List.dropWhile_cons_of_neg (by rw [hvisible]; decide), hfront]
  exact trimEnd_concat hvisible'

theorem Replaced.head {p m : Text} {c : Char} (h : Replaced p m) (hc : p.head? = some c) (hv : IsVisible c) :
    m.head? = some c := by
  obtain ⟨rest, rfl⟩ := List.head?_eq_some_iff.mp hc
  cases h with
  | keep => rfl
  | replace hn =>
    rw [hv.1] at hn
    cases hn

theorem Replaced.getLast {p m : Text} {c : Char} (h : Replaced p m) (hc : p.getLast? = some c) (hv : IsVisible c) :
    m.getLast? = some c := by
  obtain ⟨front, rfl⟩ := List.getLast?_eq_some_iff.mp hc
  obtain ⟨m₁, m₂, rfl, -, hlast⟩ := h.split
  rw [hlast.eq_of_ascii (by simpa [IsAscii] using hv.1)]
  exact List.getLast?_concat ..

section
variable {serde : SerdeJson}

/-- A data line is metered alike whatever its characters beyond ASCII have become. -/
theorem observeSseLine_replaced (hserde : serde.CountsSurvive) {l m : Text} (h : Replaced l m)
    (hl : ∀ data, stripPrefix "data:".toList l = some data → IsPayload serde data) (u : PassthroughUsageGuard) :
    u.observeSseLine serde m = u.observeSseLine serde l := by
  have hascii : IsAscii "data:".toList := by decide
  by_cases hdata : "data:".toList <+: l
  · obtain ⟨data, rfl⟩ := hdata
    obtain ⟨front, m, rfl, hfront, hm⟩ := h.split
    obtain rfl := hfront.eq_of_ascii hascii
    obtain ⟨pad, p, post, rfl, hspace, hjson⟩ := hl data (stripPrefix_append _ _)
    obtain ⟨m, post', rfl, hm, hpost⟩ := hm.split
    obtain ⟨pad', p', rfl, hpad, hp⟩ := hm.split
    obtain rfl := hpad.eq_of_ascii fun c hc => (hspace c (List.mem_append_left post hc)).1
    obtain rfl := hpost.eq_of_ascii fun c hc => (hspace c (List.mem_append_right pad' hc)).1
    obtain ⟨⟨c, hc, hvc⟩, ⟨d, hd, hvd⟩, v, hv⟩ := hjson
    obtain ⟨w, hw, hsame⟩ := hserde p p' v hp hv
    have hblank : ∀ c ∈ pad' ++ post', isWhitespace c = true := fun c hc => (hspace c hc).2
    rw [PassthroughUsageGuard.observeSseLine, PassthroughUsageGuard.observeSseLine, stripPrefix_append,
      stripPrefix_append]
    simp only
    rw [trim_payload hblank ⟨c, hc, hvc⟩ ⟨d, hd, hvd⟩,
      trim_payload hblank ⟨c, hp.head hc hvc, hvc⟩ ⟨d, hp.getLast hd hvd, hvd⟩, hv, hw]
    obtain ⟨hprompt, hcandidates, hinput, houtput⟩ := hsame
    simp only [promptTokenCount, candidatesTokenCount] at hprompt hcandidates
    simp only [PassthroughUsageGuard.observeUsageMetadata, hprompt, hcandidates, hinput, houtput]
  · have hno : ¬ "data:".toList <+: m := by
      intro hp
      obtain ⟨r, rfl⟩ := hp
      obtain ⟨r', hr', -⟩ := h.of_ascii_prefix hascii
      exact hdata ⟨r', hr'.symm⟩
    rw [PassthroughUsageGuard.observeSseLine, PassthroughUsageGuard.observeSseLine, stripPrefix_none hdata,
      stripPrefix_none hno]

theorem JsonEvents.line {l t : Text} (hl : '\n' ∉ l) (h : JsonEvents serde (l ++ '\n' :: t)) :
    (∀ data, stripPrefix "data:".toList l = some data → IsPayload serde data) ∧ JsonEvents serde t := by
  obtain ⟨l', tail, rfl, htail, hlines⟩ := lines_line hl t
  have hspace : ∀ c ∈ tail, asciiChar c = some c ∧ isWhitespace c = true := fun c hc => htail c hc ▸ by decide
  rw [JsonEvents, hlines, List.forall_mem_cons] at h
  refine ⟨?_, h.2⟩
  intro data hdata
  by_cases hp : "data:".toList <+: l' ++ tail
  · obtain ⟨d, hd⟩ := hp
    obtain ⟨r, rfl⟩ : "data:".toList <+: l' := by
      refine List.IsPrefix.trans ⟨trimEnd d, ?_⟩ (trimEnd_le l')
      rw [← trimEnd_data, hd, trimEnd_append fun c hc => (hspace c hc).2]
    rw [List.append_assoc, stripPrefix_append] at hdata
    cases hdata
    obtain ⟨pad, p, post, rfl, hblank, hjson⟩ := h.1 r (stripPrefix_append _ r)
    refine ⟨pad, p, post ++ tail, by simp, ?_, hjson⟩
    intro c hc
    rw [← List.append_assoc] at hc
    exact (List.mem_append.mp hc).elim (hblank c) (hspace c)
  · rw [stripPrefix_none hp] at hdata
    cases hdata

theorem JsonEvents.last {l : Text} (hl : '\n' ∉ l) (h : JsonEvents serde l) :
    ∀ data, stripPrefix "data:".toList l = some data → IsPayload serde data := by
  rw [JsonEvents, lines_open hl] at h
  intro data hdata
  by_cases hnil : l = []
  · subst hnil
    cases hdata
  · rw [if_neg hnil] at h
    exact h l (List.mem_singleton_self l) data hdata

/-- An event stream is metered alike whatever its characters beyond ASCII have become. -/
theorem observeText_replaced (hserde : serde.CountsSurvive) {t m : Text} (h : Replaced t m) (ht : JsonEvents serde t)
    (u : PassthroughUsageGuard) : u.observeText serde m = u.observeText serde t := by
  induction t using line_induction generalizing m u with
  | last l hl =>
    have hm : '\n' ∉ m := fun hm => (h.mem hm).elim hl (by decide)
    rw [observeText_open (cutLine_none hl), observeText_open (cutLine_none hm), observeSseLine_trimEnd,
      observeSseLine_trimEnd, observeSseLine_replaced hserde h (ht.last hl)]
  | line l t hl ih =>
    obtain ⟨m₁, m₂, rfl, hm₁, hrest⟩ := h.split
    obtain ⟨n, m₂, rfl, hn, hm₂⟩ := Replaced.split (a := ['\n']) hrest
    obtain rfl := hn.eq_of_ascii (by decide)
    have hm : '\n' ∉ m₁ := fun hm => (hm₁.mem hm).elim hl (by decide)
    obtain ⟨hdata, hevents⟩ := ht.line hl
    rw [List.singleton_append, observeText_step serde hm, observeText_step serde hl,
      observeSseLine_replaced hserde hm₁ hdata, ih hm₂ hevents]

/-! ## The stream -/

theorem pollNext_inner (s : MeteredSseStream) : (s.pollNext serde).2.inner = s.inner.tail := by
  obtain ⟨inner, guard, buf⟩ := s
  cases inner with
  | nil => rfl
  | cons item inner => cases item <;> rfl

theorem pollNext_item (s : MeteredSseStream) : (s.pollNext serde).1 = s.inner.head? := by
  obtain ⟨inner, guard, buf⟩ := s
  cases inner with
  | nil => rfl
  | cons item inner => cases item <;> rfl

theorem polls_item (n : Nat) (s : MeteredSseStream) : ((s.polls serde n).pollNext serde).1 = s.inner[n]? := by
  induction n generalizing s with
  | zero =>
    rw [← List.head?_eq_getElem?]
    exact pollNext_item s
  | succ n ih =>
    have htail : s.inner.tail[n]? = s.inner[n + 1]? := by rw [List.getElem?_tail]
    have hinner : (s.pollNext serde).2.inner = s.inner.tail := pollNext_inner s
    rw [← htail, ← hinner]
    exact ih _

/-- The client gets the chunks of a stream as they are, and once it has ended its guard has
observed the lines of the whole text. -/
theorem metered_tee_exact (hserde : serde.CountsSurvive) {t : Text} (ht : JsonEvents serde t) {chunks : List Bytes}
    (hchunks : chunks.flatten = utf8Bytes t) (u : PassthroughUsageGuard) :
    (∀ n, ((MeteredSseStream.polls serde n ⟨chunks.map .ok, u, []⟩).pollNext serde).1 = (chunks.map .ok)[n]?) ∧
      (MeteredSseStream.read serde ⟨chunks.map .ok, u, []⟩).guard =
        (lines t).foldl (fun u line => u.observeSseLine serde line) u := by
  refine ⟨fun n => polls_item n _, ?_⟩
  calc (MeteredSseStream.read serde ⟨chunks.map .ok, u, []⟩).guard
    _ = u.observeText serde (chunks.map fromUtf8Lossy).flatten := read_pieces chunks u rfl
    _ = u.observeText serde t := observeText_replaced hserde (replaced_pieces hchunks) ht u
    _ = (lines t).foldl (fun u line => u.observeSseLine serde line) u := observeText_lines serde t u

end

/-! ## A character cut in two -/

def answerChunk (answer : Text) : Json :=
  .object [("text", .string answer), ("usageMetadata", .object [("promptTokenCount", .number (.posInt 7)),
    ("candidatesTokenCount", .number (.posInt 3))])]

def answerFront : Text := "\x7b\"text\":\"".toList

def answerBack : Text :=
  "\",\"usageMetadata\":\x7b\"promptTokenCount\":7,\"candidatesTokenCount\":3\x7d\x7d".toList

/-- Characters that stand for themselves in a JSON string. -/
def isPlain (c : Char) : Bool := 0x20 ≤ c.toNat && c != '"' && c != '\\'

def readAnswer (t : Text) : Except String Json :=
  let answer := (t.drop answerFront.length).take (t.length - answerFront.length - answerBack.length)
  if t = answerFront ++ answer ++ answerBack ∧ answer.all isPlain then .ok (answerChunk answer)
  else .error "expected value"

def answerSerde : SerdeJson := ⟨fun bytes => readAnswer (fromUtf8Lossy bytes), readAnswer⟩

theorem readAnswer_chunk {answer : Text} (h : answer.all isPlain = true) :
    readAnswer (answerFront ++ answer ++ answerBack) = .ok (answerChunk answer) := by
  have hmid : ((answerFront ++ answer ++ answerBack).drop answerFront.length).take
      ((answerFront ++ answer ++ answerBack).length - answerFront.length - answerBack.length) = answer := by
    rw [List.append_assoc, List.drop_left]
    apply List.take_left'
    simp only [List.length_append]
    omega
  unfold readAnswer
  rw [hmid, if_pos ⟨rfl, h⟩]

theorem answerSerde_survive : answerSerde.CountsSurvive := by
  intro t m v h hv
  change readAnswer t = .ok v at hv
  unfold readAnswer at hv
  simp only at hv
  generalize (t.drop answerFront.length).take _ = answer at hv
  by_cases hread : t = answerFront ++ answer ++ answerBack ∧ answer.all isPlain = true
  · rw [if_pos hread] at hv
    cases hv
    obtain ⟨rfl, hplain⟩ := hread
    obtain ⟨m, back, rfl, hm, hback⟩ := h.split
    obtain ⟨front, answer', rfl, hfront, hanswer⟩ := hm.split
    obtain rfl := hfront.eq_of_ascii (by decide)
    obtain rfl := hback.eq_of_ascii (by decide)
    refine ⟨answerChunk answer', readAnswer_chunk ?_, rfl, rfl, rfl, rfl⟩
    rw [List.all_eq_true] at hplain ⊢
    intro c hc
    rcases hanswer.mem hc with hc | rfl
    · exact hplain c hc
    · decide
  · rw [if_neg hread] at hv
    cases hv

def answerEvent : Text := "data: ".toList ++ (answerFront ++ ['é'] ++ answerBack)

theorem answerEvent_json : JsonEvents answerSerde answerEvent := by
  have hread : readAnswer (answerFront ++ ['é'] ++ answerBack) = .ok (answerChunk ['é']) := readAnswer_chunk (by decide)
  have hjson : JsonText answerSerde (answerFront ++ ['é'] ++ answerBack) :=
    ⟨⟨'\x7b', rfl, by decide, by decide⟩, ⟨'\x7d', rfl, by decide, by decide⟩, _, hread⟩
  have hlines : lines answerEvent = [answerEvent] := by
    rw [lines_open (by decide)]
    rfl
  rw [JsonEvents, hlines, List.forall_mem_singleton]
  intro data hdata
  cases hdata
  have hblank : ∀ c ∈ [' '] ++ [], asciiChar c = some c ∧ isWhitespace c = true :=
    List.forall_mem_singleton.mpr ⟨rfl, rfl⟩
  exact ⟨[' '], answerFront ++ ['é'] ++ answerBack, [], rfl, hblank, hjson⟩

/-- The two bytes of `é` come in different chunks, and the last line is not ended. -/
theorem metered_tee_halves :
    (utf8Bytes answerEvent)[16]? = some 0xa9 ∧
      (MeteredSseStream.read answerSerde ⟨[(utf8Bytes answerEvent).take 16, (utf8Bytes answerEvent).drop 16].map .ok,
        .new flashGateway {} "id" "gemini-2.5-flash" none "vertex" "chat", []⟩).guard =
      { PassthroughUsageGuard.new flashGateway {} "id" "gemini-2.5-flash" none "vertex" "chat" with
        inputTokens := 7, outputTokens := 3 } := by
  refine ⟨by decide, ?_⟩
  rw [(metered_tee_exact answerSerde_survive answerEvent_json (by simp) _).2]
  rfl

end SynapseGateway
