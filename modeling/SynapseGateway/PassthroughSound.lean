import Mathlib.Data.List.Induction
import SynapseGateway.Lib.Assoc
import SynapseGateway.Passthrough
import SynapseGateway.SseSound

/-!
# What the passthrough meters

The usage of a response is what its last counts say, whether it comes as one JSON
object or as an event stream in any pieces. An array of chunks is not looked into.
-/

namespace SynapseGateway

open Outline
open Utf8 (Text)

/-! ## Counts -/

def promptTokenCount : Json → Option Nat := usageCount "usageMetadata" "promptTokenCount"

def candidatesTokenCount : Json → Option Nat := usageCount "usageMetadata" "candidatesTokenCount"

/-- The last count that any chunk reports; 0 if none does. -/
def lastCount (count : Json → Option Nat) (chunks : List Json) : Nat := ((chunks.filterMap count).getLast?).getD 0

def foldCount (reported other : Json → Option Nat) (start : Nat) (chunks : List Json) : Nat :=
  chunks.foldl (fun n c => (reported c).getD ((other c).getD n)) start

/-- A count of the other kind that comes after the last reported one agrees with it. -/
def VertexLast (reported other : Json → Option Nat) (chunks : List Json) : Prop :=
  ∀ pre c post n, chunks = pre ++ c :: post → other c = some n → reported c = none →
    (∀ d ∈ post, reported d = none ∧ other d = none) → n = lastCount reported pre

section
variable {reported other : Json → Option Nat}

theorem lastCount_concat_some {chunks : List Json} {c : Json} {n : Nat} (h : reported c = some n) :
    lastCount reported (chunks ++ [c]) = n := by
  simp [lastCount, h]

theorem lastCount_concat_none {chunks : List Json} {c : Json} (h : reported c = none) :
    lastCount reported (chunks ++ [c]) = lastCount reported chunks := by
  simp [lastCount, h]

theorem foldCount_concat (start : Nat) (chunks : List Json) (c : Json) :
    foldCount reported other start (chunks ++ [c]) =
      (reported c).getD ((other c).getD (foldCount reported other start chunks)) := by
  simp [foldCount]

theorem vertexLast_concat_some {chunks : List Json} {c : Json} {n : Nat} (h : reported c = some n) :
    VertexLast reported other (chunks ++ [c]) := by
  intro pre d post m hsplit hother hnone hpost
  obtain rfl | ⟨post', e, rfl⟩ := List.eq_nil_or_concat' post
  · obtain ⟨-, hd⟩ := List.append_inj' hsplit rfl
    cases hd
    rw [h] at hnone
    cases hnone
  · have he : chunks ++ [c] = (pre ++ d :: post') ++ [e] := by simpa using hsplit
    obtain ⟨-, hd⟩ := List.append_inj' he rfl
    cases hd
    have hnone := (hpost c (by simp)).1
    rw [h] at hnone
    cases hnone

theorem vertexLast_concat_none {chunks : List Json} {c : Json} (h : reported c = none) (ho : other c = none) :
    VertexLast reported other (chunks ++ [c]) ↔ VertexLast reported other chunks := by
  constructor
  · intro hv pre d post m hsplit hother hnone hpost
    apply hv pre d (post ++ [c]) m (by rw [hsplit]; simp) hother hnone
    intro e he
    rcases List.mem_append.mp he with he | he
    · exact hpost e he
    · rw [List.mem_singleton.mp he]
      exact ⟨h, ho⟩
  · intro hv pre d post m hsplit hother hnone hpost
    obtain rfl | ⟨post', e, rfl⟩ := List.eq_nil_or_concat' post
    · obtain ⟨-, hd⟩ := List.append_inj' hsplit rfl
      cases hd
      rw [ho] at hother
      cases hother
    · have he : chunks ++ [c] = (pre ++ d :: post') ++ [e] := by simpa using hsplit
      obtain ⟨hchunks, -⟩ := List.append_inj' he rfl
      exact hv pre d post' m hchunks hother hnone fun x hx => hpost x (by simp [hx])

theorem vertexLast_concat_other {chunks : List Json} {c : Json} {n : Nat} (h : reported c = none)
    (ho : other c = some n) : VertexLast reported other (chunks ++ [c]) ↔ n = lastCount reported chunks := by
  constructor
  · intro hv
    exact hv chunks c [] n rfl ho h (by simp)
  · intro hn pre d post m hsplit hother hnone hpost
    obtain rfl | ⟨post', e, rfl⟩ := List.eq_nil_or_concat' post
    · obtain ⟨hpre, hd⟩ := List.append_inj' hsplit rfl
      cases hd
      rw [ho] at hother
      cases hother
      rw [← hpre]
      exact hn
    · have he : chunks ++ [c] = (pre ++ d :: post') ++ [e] := by simpa using hsplit
      obtain ⟨-, hd⟩ := List.append_inj' he rfl
      cases hd
      have hnone := (hpost c (by simp)).2
      rw [ho] at hnone
      cases hnone

theorem foldCount_eq_iff (chunks : List Json) :
    foldCount reported other 0 chunks = lastCount reported chunks ↔ VertexLast reported other chunks := by
  induction chunks using List.reverseRecOn with
  | nil =>
    refine ⟨fun _ => ?_, fun _ => rfl⟩
    intro pre d post m hsplit
    cases pre <;> cases hsplit
  | append_singleton chunks c ih =>
    rw [foldCount_concat]
    cases h : reported c with
    | some n =>
      rw [lastCount_concat_some h]
      exact ⟨fun _ => vertexLast_concat_some h, fun _ => rfl⟩
    | none =>
      rw [lastCount_concat_none h]
      cases ho : other c with
      | none =>
        rw [vertexLast_concat_none h ho]
        exact ih
      | some n =>
        rw [vertexLast_concat_other h ho]
        exact Iff.rfl

end

/-! ## Observing -/

def PassthroughUsageGuard.observeChunks (u : PassthroughUsageGuard) (chunks : List Json) : PassthroughUsageGuard :=
  chunks.foldl PassthroughUsageGuard.observeUsageMetadata u

theorem observeChunks_eq (u : PassthroughUsageGuard) (chunks : List Json) :
    u.observeChunks chunks =
      { u with
        inputTokens := foldCount promptTokenCount (usageCount "usage" "input_tokens") u.inputTokens chunks
        outputTokens := foldCount candidatesTokenCount (usageCount "usage" "output_tokens") u.outputTokens chunks } := by
  induction chunks generalizing u with
  | nil => rfl
  | cons c chunks ih =>
    show (u.observeUsageMetadata c).observeChunks chunks = _
    rw [ih]
    rfl

theorem observeChunks_append (u : PassthroughUsageGuard) (cs ds : List Json) :
    u.observeChunks (cs ++ ds) = (u.observeChunks cs).observeChunks ds :=
  List.foldl_append

/-- The counts a chunk is read for, under keys of ASCII characters. -/
def SameCounts (v w : Json) : Prop :=
  ∀ group count : String, IsAscii (group.toList ++ count.toList) →
    usageCount group count v = usageCount group count w

theorem observeUsageMetadata_congr {v w : Json} (h : SameCounts v w) (u : PassthroughUsageGuard) :
    u.observeUsageMetadata v = u.observeUsageMetadata w := by
  unfold PassthroughUsageGuard.observeUsageMetadata
  rw [h "usageMetadata" "promptTokenCount" (by decide), h "usageMetadata" "candidatesTokenCount" (by decide),
    h "usage" "input_tokens" (by decide), h "usage" "output_tokens" (by decide)]

/-- A JSON text with others of its characters is a JSON text of an alike value. -/
def SerdeJson.Keeps (serde : SerdeJson) (other : Text → Text → Prop) (alike : Json → Json → Prop) : Prop :=
  ∀ t t' v, other t t' → serde.fromStr t = .ok v → ∃ v', serde.fromStr t' = .ok v' ∧ alike v' v

/-- A JSON text has characters beyond ASCII in its strings only, and they end none of
them: others in their place leave the values under ASCII keys as they are. -/
def SerdeJson.Oblivious (serde : SerdeJson) : Prop :=
  serde.Keeps (fun t t' => outline asciiChar t = outline asciiChar t') SameCounts

/-! ## The wire -/

def IsBlank (c : Char) : Prop := c = ' ' ∨ c = '\t' ∨ c = '\r'

/-- A line of an event stream, without its newline, and the chunks on it. -/
inductive SseLine (serde : SerdeJson) : Text → List Json → Prop where
  | other {l : Text} (hline : '\n' ∉ l) (hdata : ¬ "data:".toList <+: l) : SseLine serde l []
  | data {pad inner post : Text} {v : Json} (hpad : ∀ c ∈ pad, IsBlank c) (hinner : '\n' ∉ inner)
      (hpost : ∀ c ∈ post, IsBlank c) (hv : serde.fromStr ('\x7b' :: inner ++ ['\x7d']) = .ok v) :
      SseLine serde ("data:".toList ++ pad ++ '\x7b' :: inner ++ '\x7d' :: post) [v]

/-- An event stream and its chunks. The last line may come without a newline. -/
inductive SseBody (serde : SerdeJson) : Text → List Json → Prop where
  | last {l : Text} {vs : List Json} (hl : SseLine serde l vs) : SseBody serde l vs
  | line {l t : Text} {vs ws : List Json} (hl : SseLine serde l vs) (ht : SseBody serde t ws) :
      SseBody serde (l ++ '\n' :: t) (vs ++ ws)

/-- What Vertex answers an action with, asked for an event stream or not, and the chunks
of the answer. -/
inductive VertexWire (serde : SerdeJson) : String → Bool → Bytes → List Json → Prop where
  | object {bytes : Bytes} {members : List (String × Json)} (h : serde.fromSlice bytes = .ok (.object members)) :
      VertexWire serde "generateContent" false bytes [.object members]
  | array {bytes : Bytes} {chunks : List Json} (h : serde.fromSlice bytes = .ok (.array chunks)) :
      VertexWire serde "streamGenerateContent" false bytes chunks
  | stream {t : Text} {chunks : List Json} (h : SseBody serde t chunks) :
      VertexWire serde "streamGenerateContent" true (utf8Bytes t) chunks

theorem VertexWire.inv {serde : SerdeJson} {action : String} {alt : Bool} {bytes : Bytes} {chunks : List Json}
    (h : VertexWire serde action alt bytes chunks) :
    (isStreaming action = false ∧ ∃ v, serde.fromSlice bytes = .ok v ∧ chunks = [v]) ∨
      (isStreaming action = true ∧ alt = false ∧ serde.fromSlice bytes = .ok (.array chunks)) ∨
      (isStreaming action = true ∧ alt = true ∧ ∃ t, SseBody serde t chunks ∧ bytes = utf8Bytes t) := by
  cases h with
  | object h => exact .inl ⟨rfl, _, h, rfl⟩
  | array h => exact .inr (.inl ⟨rfl, rfl, h⟩)
  | stream h => exact .inr (.inr ⟨rfl, rfl, _, h, rfl⟩)

/-! ## Texts of one outline -/

theorem isBlank_ascii {c : Char} (h : IsBlank c) : asciiChar c = some c := by
  obtain rfl | rfl | rfl := h <;> decide

theorem isBlank_whitespace {c : Char} (h : IsBlank c) : isWhitespace c = true := by
  obtain rfl | rfl | rfl := h <;> decide

theorem ascii_prefix {p r m : Text} (hp : IsAscii p)
    (h : outline asciiChar m = outline asciiChar (p ++ r)) :
    ∃ r', m = p ++ r' ∧ outline asciiChar r' = outline asciiChar r := by
  induction p generalizing m with
  | nil => exact ⟨m, rfl, h⟩
  | cons c p ih =>
    have hc : outline asciiChar m = outline asciiChar ([] ++ c :: (p ++ r)) := h
    obtain ⟨as, a, bs, rfl, ha, has, hbs⟩ := split_alike (hp c List.mem_cons_self) hc
    obtain rfl : as = [] := outline_eq_nil.mp has
    obtain rfl := asciiChar_some ha
    obtain ⟨r', rfl, hr⟩ := ih (fun x hx => hp x (List.mem_cons_of_mem a hx)) hbs
    exact ⟨r', rfl, hr⟩

theorem ascii_eq {p m : Text} (hp : IsAscii p) (h : outline asciiChar m = outline asciiChar p) :
    m = p := by
  rw [← List.append_nil p] at h
  obtain ⟨r, hr, hnil⟩ := ascii_prefix hp h
  rw [hr, outline_eq_nil.mp hnil, List.append_nil]

theorem newline_notMem {m l : Text} (h : outline asciiChar m = outline asciiChar l) (hl : '\n' ∉ l) : '\n' ∉ m := by
  intro hm
  have hmem : some '\n' ∈ outline asciiChar m := mem_outline.mpr ⟨'\n', hm, by decide⟩
  rw [h] at hmem
  obtain ⟨c, hc, he⟩ := mem_outline.mp hmem
  exact hl (asciiChar_some he ▸ hc)

theorem trimEnd_append {m tail : Text} (h : ∀ c ∈ tail, isWhitespace c = true) : trimEnd (m ++ tail) = trimEnd m := by
  have hr : ∀ c ∈ tail.reverse, isWhitespace c = true := fun c hc => h c (List.mem_reverse.mp hc)
  rw [trimEnd, trimEnd, List.reverse_append, List.dropWhile_append_of_pos hr]

theorem trimEnd_concat {m : Text} {c : Char} (h : isWhitespace c = false) : trimEnd (m ++ [c]) = m ++ [c] := by
  simp [trimEnd, h]

theorem trimEnd_le (m : Text) : trimEnd m <+: m := by
  have hs := List.dropWhile_suffix isWhitespace (l := m.reverse)
  simpa [trimEnd] using List.reverse_prefix.mpr hs

theorem trim_eq {pad m : Text} (hpad : ∀ c ∈ pad, isWhitespace c = true) {c d : Char} (hc : isWhitespace c = false)
    (hd : isWhitespace d = false) : trim (pad ++ (c :: m ++ [d])) = c :: m ++ [d] := by
  rw [trim, List.dropWhile_append_of_pos hpad, List.cons_append, List.dropWhile_cons_of_neg (by simp [hc])]
  simp [hd]

theorem stripPrefix_none {p t : Text} (h : ¬ p <+: t) : stripPrefix p t = none := by
  rw [stripPrefix, if_neg]
  exact fun hp => h (List.isPrefixOf_iff_prefix.mp hp)

/-! ## The event stream -/

section
variable {serde : SerdeJson}

theorem SseLine.newline_notMem {l : Text} {vs : List Json} (h : SseLine serde l vs) : '\n' ∉ l := by
  cases h with
  | other hline => exact hline
  | data hpad hinner hpost =>
    have hblank : ¬ IsBlank '\n' := by
      intro h
      obtain h | h | h := h <;> cases h
    simp only [List.mem_append, List.mem_cons, not_or]
    exact ⟨⟨⟨by decide, fun h => hblank (hpad _ h)⟩, by decide, hinner⟩, by decide, fun h => hblank (hpost _ h)⟩

/-- A line is metered by its chunks, whatever its characters beyond ASCII have become. -/
theorem observeSseLine_line (hserde : serde.Oblivious) {l m tail : Text} {vs : List Json} (h : SseLine serde l vs)
    (hm : outline asciiChar m = outline asciiChar l) (htail : ∀ c ∈ tail, isWhitespace c = true)
    (u : PassthroughUsageGuard) : u.observeSseLine serde (trimEnd (m ++ tail)) = u.observeChunks vs := by
  rw [trimEnd_append htail]
  have hascii : IsAscii "data:".toList := by decide
  cases h with
  | other hline hdata =>
    have hno : ¬ "data:".toList <+: trimEnd m := by
      intro hp
      obtain ⟨r, hr⟩ := hp.trans (trimEnd_le m)
      rw [← hr] at hm
      obtain ⟨r', hr', -⟩ := ascii_prefix hascii hm.symm
      exact hdata ⟨r', hr'.symm⟩
    rw [PassthroughUsageGuard.observeSseLine, stripPrefix_none hno]
    rfl
  | @data pad inner post v hpad hinner hpost hv =>
    have hfront : IsAscii ("data:".toList ++ pad ++ ['\x7b']) := by
      intro c hc
      simp only [List.mem_append, List.mem_singleton] at hc
      obtain (hc | hc) | rfl := hc
      · exact hascii c hc
      · exact isBlank_ascii (hpad c hc)
      · decide
    obtain ⟨r, rfl, hr⟩ := ascii_prefix (r := inner ++ '\x7d' :: post) hfront (by simpa using hm)
    obtain ⟨inner', c, post', rfl, hc, hin, hpo⟩ := split_alike (y := '\x7d') (by decide) hr
    obtain rfl := asciiChar_some hc
    obtain rfl := ascii_eq (fun c hc => isBlank_ascii (hpost c hc)) hpo
    have hpayload : outline asciiChar ('\x7b' :: inner ++ ['\x7d']) = outline asciiChar ('\x7b' :: inner' ++ ['\x7d']) :=
      outline_append_congr (show outline asciiChar (['\x7b'] ++ inner) = outline asciiChar (['\x7b'] ++ inner') from
        outline_append_congr rfl hin.symm) rfl
    obtain ⟨v', hv', hsame⟩ := hserde _ _ v hpayload hv
    have htrim : trimEnd ("data:".toList ++ pad ++ ['\x7b'] ++ (inner' ++ '\x7d' :: post')) =
        "data:".toList ++ (pad ++ ('\x7b' :: inner' ++ ['\x7d'])) := by
      have hsplit : "data:".toList ++ pad ++ ['\x7b'] ++ (inner' ++ '\x7d' :: post') =
          ("data:".toList ++ pad ++ ['\x7b'] ++ inner' ++ ['\x7d']) ++ post' := by simp
      rw [hsplit, trimEnd_append fun c hc => isBlank_whitespace (hpost c hc), trimEnd_concat (by decide)]
      simp
    rw [PassthroughUsageGuard.observeSseLine, htrim, stripPrefix_append]
    simp only
    rw [trim_eq (fun c hc => isBlank_whitespace (hpad c hc)) (by decide) (by decide), hv']
    exact observeUsageMetadata_congr hsame u

/-- A text as it is metered: its complete lines, then what is left of it. -/
def PassthroughUsageGuard.observeText (serde : SerdeJson) (u : PassthroughUsageGuard) (t : Text) :
    PassthroughUsageGuard :=
  (u.observeLines serde (newline.drain t).1).observeSseLine serde (trimEnd (newline.drain t).2)

theorem cutLine_none {l : Text} (h : '\n' ∉ l) : newline.cut l = none := by
  cases hc : newline.cut l with
  | none => rfl
  | some p =>
    obtain ⟨l', -, -, rfl⟩ := cutLine_some hc
    exact absurd (by simp) h

theorem observeText_open {l : Text} (h : newline.cut l = none) (u : PassthroughUsageGuard) :
    u.observeText serde l = u.observeSseLine serde (trimEnd l) := by
  rw [PassthroughUsageGuard.observeText, Framing.Cutter.drain_none h]
  rfl

theorem observeText_line {l : Text} (h : '\n' ∉ l) (t : Text) (u : PassthroughUsageGuard) :
    u.observeText serde (l ++ '\n' :: t) = (u.observeSseLine serde (trimEnd (l ++ ['\n']))).observeText serde t := by
  have hcut : newline.cut (l ++ '\n' :: t) = some (l ++ ['\n'], t) := cutLine_append h t
  rw [PassthroughUsageGuard.observeText, Framing.Cutter.drain_some hcut]
  rfl

theorem observeText_append (b c : Text) (u : PassthroughUsageGuard) :
    u.observeText serde (b ++ c) =
      (u.observeLines serde (newline.drain b).1).observeText serde ((newline.drain b).2 ++ c) := by
  unfold PassthroughUsageGuard.observeText
  rw [Framing.Cutter.drain_append c (Nat.le_refl b.length)]
  simp only [PassthroughUsageGuard.observeLines, List.foldl_append]

theorem observeText_body (hserde : serde.Oblivious) {t m : Text} {chunks : List Json} (h : SseBody serde t chunks)
    (hm : outline asciiChar m = outline asciiChar t) (u : PassthroughUsageGuard) :
    u.observeText serde m = u.observeChunks chunks := by
  induction h generalizing m u with
  | last hl =>
    rw [observeText_open (cutLine_none (newline_notMem hm hl.newline_notMem))]
    have hline := observeSseLine_line hserde hl hm (show ∀ c ∈ [], isWhitespace c = true by simp) u
    rw [List.append_nil] at hline
    exact hline
  | line hl ht ih =>
    obtain ⟨as, c, bs, rfl, hc, has, hbs⟩ := split_alike (y := '\n') (by decide) hm
    obtain rfl := asciiChar_some hc
    rw [observeText_line (newline_notMem has hl.newline_notMem),
      observeSseLine_line hserde hl has (List.forall_mem_singleton.mpr rfl), ih hbs, observeChunks_append]

theorem read_pieces (pieces : List Bytes) (u : PassthroughUsageGuard) {buf : Text} (hbuf : newline.cut buf = none) :
    (MeteredSseStream.read serde ⟨pieces.map .ok, u, buf⟩).guard =
      u.observeText serde (buf ++ (pieces.map fromUtf8Lossy).flatten) := by
  induction pieces generalizing u buf with
  | nil =>
    simp only [List.map_nil, List.flatten_nil, List.append_nil]
    exact (observeText_open hbuf u).symm
  | cons bytes pieces ih =>
    have hrest := Framing.Cutter.cut_drain (k := newline) (Nat.le_refl (buf ++ fromUtf8Lossy bytes).length)
    have hnext := ih (u.observeLines serde (newline.drain (buf ++ fromUtf8Lossy bytes)).1) hrest
    rw [List.map_cons (f := fromUtf8Lossy), List.flatten_cons, ← List.append_assoc, observeText_append]
    exact hnext

end

/-! ## The legs -/

/-- An answer after which the next leg is asked. -/
def FailsOver (answer : Except GatewayError VertexReply) : Prop :=
  ∀ reply, answer = .ok reply → isSuccess reply.status = false ∧ passthroughStatusRetryable reply.status = true

section
variable {serde : SerdeJson}

theorem forwardGeminiLegs_ends {c : GeminiCall} {send : Nat → VertexCall → Except GatewayError VertexReply}
    {uuid : Nat → String} {i : Nat} {last : Option (Nat × Bytes)} {leg : ChainLeg} {legs : List ChainLeg}
    {rows : List UsageEntry} {out : PassthroughOut}
    (h : c.answered serde uuid i last leg (!legs.isEmpty) (send i (c.ask leg)) = (rows, .ends out)) :
    c.forwardGeminiLegs serde send uuid i last (leg :: legs) = ⟨rows, out⟩ := by
  unfold GeminiCall.forwardGeminiLegs
  rw [GeminiCall.legSteps, h]
  simp

theorem forwardGeminiLegs_next {c : GeminiCall} {send : Nat → VertexCall → Except GatewayError VertexReply}
    {uuid : Nat → String} {i : Nat} {last failure : Option (Nat × Bytes)} {leg : ChainLeg} {legs : List ChainLeg}
    {rows : List UsageEntry}
    (h : c.answered serde uuid i last leg (!legs.isEmpty) (send i (c.ask leg)) = (rows, .next failure)) :
    c.forwardGeminiLegs serde send uuid i last (leg :: legs) =
      ⟨rows ++ (c.forwardGeminiLegs serde send uuid (i + 1) failure legs).rows,
        (c.forwardGeminiLegs serde send uuid (i + 1) failure legs).out⟩ := by
  unfold GeminiCall.forwardGeminiLegs
  rw [GeminiCall.legSteps, h]
  simp

theorem answered_succeed {c : GeminiCall} {uuid : Nat → String} {i : Nat} {last : Option (Nat × Bytes)}
    {leg : ChainLeg} {more : Bool} {reply : VertexReply} (h : isSuccess reply.status = true) :
    c.answered serde uuid i last leg more (.ok reply) =
      ((c.succeed serde uuid i leg reply).rows, .ends (c.succeed serde uuid i leg reply).out) := if_pos h

theorem answered_fail {c : GeminiCall} {uuid : Nat → String} {i : Nat} {last : Option (Nat × Bytes)}
    {leg : ChainLeg} {more : Bool} {reply : VertexReply} (h : isSuccess reply.status = false) :
    c.answered serde uuid i last leg more (.ok reply) = ([c.errorRow (uuid i) leg.model],
      if passthroughStatusRetryable reply.status && more then
        .next (some (reply.status, (readBytes reply.body).toOption.getD []))
      else
        let head : PassthroughHead := ⟨reply.status, "application/json", none, none, none⟩
        .ends (.buffered (head.withPassthroughLegHeaders (i + 1) false)
          ((readBytes reply.body).toOption.getD []))) := if_neg (by simp [h])

/-- An answer that fails over is passed on where there are more legs. -/
theorem answered_failsOver {c : GeminiCall} {uuid : Nat → String} {i : Nat} {last : Option (Nat × Bytes)}
    {leg : ChainLeg} {answer : Except GatewayError VertexReply} (h : FailsOver answer) :
    ∃ failure, c.answered serde uuid i last leg true answer = ([c.errorRow (uuid i) leg.model], .next failure) := by
  cases answer with
  | error e => exact ⟨last, rfl⟩
  | ok reply =>
    obtain ⟨hfail, hretry⟩ := h reply rfl
    refine ⟨some (reply.status, (readBytes reply.body).toOption.getD []), ?_⟩
    rw [answered_fail hfail, hretry]
    rfl

/-- Legs that fail over before leg `i` leave rows of their own and nothing else. -/
theorem forwardGeminiLegs_succeed (c : GeminiCall) {send : Nat → VertexCall → Except GatewayError VertexReply}
    (uuid : Nat → String) {legs : List ChainLeg} {i k : Nat} (last : Option (Nat × Bytes)) {leg : ChainLeg}
    {reply : VertexReply} (hleg : legs[i]? = some leg) (hsend : send (k + i) (c.ask leg) = .ok reply)
    (hok : isSuccess reply.status = true)
    (hbefore : ∀ j < i, ∀ l, legs[j]? = some l → FailsOver (send (k + j) (c.ask l))) :
    ∃ rows, rows.length = i ∧ c.forwardGeminiLegs serde send uuid k last legs =
      ⟨rows ++ (c.succeed serde uuid (k + i) leg reply).rows, (c.succeed serde uuid (k + i) leg reply).out⟩ := by
  induction legs generalizing i k last with
  | nil => cases hleg
  | cons l legs ih =>
    cases i with
    | zero =>
      cases hleg
      refine ⟨[], rfl, ?_⟩
      rw [Nat.add_zero] at hsend ⊢
      refine forwardGeminiLegs_ends ?_
      rw [hsend, answered_succeed hok]
      rfl
    | succ i =>
      have hne : legs.isEmpty = false := by
        cases legs with
        | nil => cases hleg
        | cons => rfl
      have hk : k + (i + 1) = k + 1 + i := by omega
      rw [hk] at hsend ⊢
      have hrest : ∀ j < i, ∀ l', legs[j]? = some l' → FailsOver (send (k + 1 + j) (c.ask l')) := by
        intro j hj l' hl'
        have hfail := hbefore (j + 1) (Nat.succ_lt_succ hj) l' hl'
        rwa [show k + (j + 1) = k + 1 + j by omega] at hfail
      obtain ⟨failure, hnext⟩ := @answered_failsOver serde c uuid k last l _ (hbefore 0 (Nat.succ_pos i) l rfl)
      obtain ⟨rows, hlen, hrun⟩ := ih failure hleg hsend hrest
      refine ⟨c.errorRow (uuid k) l.model :: rows, by rw [List.length_cons, hlen], ?_⟩
      rw [forwardGeminiLegs_next (by rw [hne]; exact hnext), hrun]
      rfl

theorem readBytes_pieces (pieces : List Bytes) : readBytes (pieces.map .ok) = .ok pieces.flatten := by
  induction pieces with
  | nil => rfl
  | cons bytes pieces ih =>
    rw [List.map_cons, readBytes, ih]
    rfl

theorem ledger_withGuardHeader (run : PassthroughRun) (masked : Bool) :
    PassthroughRun.ledger serde { run with out := run.out.withGuardHeader masked } = run.ledger serde := by
  obtain ⟨rows, out⟩ := run
  cases out <;> rfl

theorem ledger_append (rows : List UsageEntry) (run : PassthroughRun) :
    PassthroughRun.ledger serde ⟨rows ++ run.rows, run.out⟩ = rows ++ run.ledger serde := by
  obtain ⟨rows', out⟩ := run
  cases out with
  | streamed head stream => exact List.append_assoc _ _ _
  | failed e => rfl
  | buffered head bytes => rfl

theorem ledger_buffered (c : GeminiCall) {uuid : Nat → String} {i : Nat} {leg : ChainLeg} {reply : VertexReply}
    {pieces : List Bytes} (hbody : reply.body = pieces.map .ok) (hbuf : (c.streaming && c.altSse) = false) :
    (c.succeed serde uuid i leg reply).ledger serde =
      [((c.usageGuard (uuid i) leg.model).observeBody serde pieces.flatten).row] := by
  rw [GeminiCall.succeed]
  simp only
  rw [if_neg (by simp [hbuf]), hbody, readBytes_pieces]
  rfl

theorem ledger_streamed (c : GeminiCall) {uuid : Nat → String} {i : Nat} {leg : ChainLeg} {reply : VertexReply}
    {pieces : List Bytes} (hbody : reply.body = pieces.map .ok) (hstream : (c.streaming && c.altSse) = true) :
    (c.succeed serde uuid i leg reply).ledger serde =
      [((c.usageGuard (uuid i) leg.model).observeText serde (pieces.map fromUtf8Lossy).flatten).row] := by
  have hread : (MeteredSseStream.read serde ⟨pieces.map .ok, c.usageGuard (uuid i) leg.model, []⟩).guard = _ :=
    read_pieces pieces _ rfl
  rw [GeminiCall.succeed]
  simp only
  rw [if_pos hstream, hbody]
  show [(MeteredSseStream.read serde ⟨pieces.map .ok, _, []⟩).guard.row] = _
  rw [hread]
  rfl

end

/-! ## The row of a call -/

/-- Leg `i` of an admitted call answers with success, after legs that fail over; its body
comes whole, in pieces, in the format the leg was asked for. -/
structure Answered (serde : SerdeJson) (g : GeminiGateway)
    (screen : (model route action : String) → Json → Except GatewayError (Json × Bool))
    (send : Nat → VertexCall → Except GatewayError VertexReply) (ctx : RequestCtx) (req : GeminiRequest)
    (a : AdmittedGemini) (i : Nat) (leg : ChainLeg) (pieces : List Bytes) (chunks : List Json) : Prop where
  admitted : g.admitGemini screen req = .ok a
  metered : isMetered a.action = true
  served : a.chain.legs[i]? = some leg
  success : ∃ reply, send i ((a.call g ctx req.query).ask leg) = .ok reply ∧ isSuccess reply.status = true ∧
    reply.body = pieces.map .ok
  before : ∀ j < i, ∀ l, a.chain.legs[j]? = some l → FailsOver (send j ((a.call g ctx req.query).ask l))
  wire : VertexWire serde a.action (altSse req.query && isStreaming a.action) pieces.flatten chunks

/-- The last row of a call has the last counts its chunks report. -/
def MeteredAs (rows : List UsageEntry) (leg : ChainLeg) (chunks : List Json) : Prop :=
  ∃ row, rows.getLast? = some row ∧ row.model = leg.model ∧ row.lane = "passthrough" ∧
    row.inputTokens = lastCount promptTokenCount chunks ∧ row.outputTokens = lastCount candidatesTokenCount chunks

/-- The counts of a response are read: it is no array of chunks that report any, and none
of its chunks ends with counts that are not Vertex's. -/
def Countable (action : String) (altSse : Bool) (chunks : List Json) : Prop :=
  if isStreaming action && !altSse then
    lastCount promptTokenCount chunks = 0 ∧ lastCount candidatesTokenCount chunks = 0
  else
    VertexLast promptTokenCount (usageCount "usage" "input_tokens") chunks ∧
      VertexLast candidatesTokenCount (usageCount "usage" "output_tokens") chunks

section
variable {serde : SerdeJson} {g : GeminiGateway}
  {screen : (model route action : String) → Json → Except GatewayError (Json × Bool)}
  {send : Nat → VertexCall → Except GatewayError VertexReply} {ctx : RequestCtx} {req : GeminiRequest}
  {a : AdmittedGemini} {i : Nat} {leg : ChainLeg} {pieces : List Bytes} {chunks : List Json}

/-- A call writes one row for each leg before, and one that its chunks are folded into,
unless they came as an array. -/
theorem Answered.ledger (hserde : serde.Oblivious) (h : Answered serde g screen send ctx req a i leg pieces chunks)
    (uuid : Nat → String) :
    ∃ rows, rows.length = i ∧ (g.forwardGemini serde screen send uuid ctx req).ledger serde =
      rows ++ [(if isStreaming a.action && !altSse req.query then
          (a.call g (ctx.stamped (uuid 0)) req.query).usageGuard (uuid (i + 1)) leg.model
        else ((a.call g (ctx.stamped (uuid 0)) req.query).usageGuard (uuid (i + 1)) leg.model).observeChunks chunks).row] := by
  obtain ⟨reply, hsend, hok, hbody⟩ := h.success
  have hzero : ∀ j, 0 + j = j := Nat.zero_add
  obtain ⟨rows, hlen, hrun⟩ := forwardGeminiLegs_succeed (a.call g (ctx.stamped (uuid 0)) req.query)
    (fun i => uuid (i + 1)) none h.served (show send (0 + i) _ = _ by rw [hzero]; exact hsend) hok
    (by intro j; rw [hzero]; exact h.before j)
  refine ⟨rows, hlen, ?_⟩
  rw [GeminiGateway.forwardGemini, h.admitted]
  simp only
  rw [if_pos h.metered, ledger_withGuardHeader, hrun, ledger_append, hzero]
  congr 1
  obtain ⟨hplain, v, hv, rfl⟩ | ⟨harray, halt, hv⟩ | ⟨hstream, halt, t, ht, hbytes⟩ := h.wire.inv
  · have hbuf : (isStreaming a.action && altSse req.query) = false := by rw [hplain]; rfl
    rw [ledger_buffered _ hbody hbuf, PassthroughUsageGuard.observeBody, hv, hplain]
    rfl
  · have hquery : altSse req.query = false := by simpa [harray] using halt
    have hbuf : (isStreaming a.action && altSse req.query) = false := by rw [hquery, Bool.and_false]
    rw [ledger_buffered _ hbody hbuf, PassthroughUsageGuard.observeBody, hv, harray, hquery]
    rfl
  · have hquery : altSse req.query = true := by simpa [hstream] using halt
    have hboth : (isStreaming a.action && altSse req.query) = true := by rw [hstream, hquery]; rfl
    rw [ledger_streamed _ hbody hboth, observeText_body hserde ht (outline_pieces hbytes), hstream, hquery]
    rfl

theorem meteredAs_concat {rows : List UsageEntry} {u : PassthroughUsageGuard} (hmodel : u.model = leg.model) :
    MeteredAs (rows ++ [u.row]) leg chunks ↔
      u.inputTokens = lastCount promptTokenCount chunks ∧ u.outputTokens = lastCount candidatesTokenCount chunks := by
  unfold MeteredAs
  constructor
  · intro h
    obtain ⟨row, hrow, -, -, hin, hout⟩ := h
    rw [List.getLast?_concat] at hrow
    cases hrow
    exact ⟨hin, hout⟩
  · intro h
    exact ⟨u.row, by rw [List.getLast?_concat], hmodel, rfl, h⟩

/-- The row of a call has the last counts of its response exactly when they are read: not
from an array of chunks. -/
theorem passthrough_metered_iff (hserde : serde.Oblivious)
    (h : Answered serde g screen send ctx req a i leg pieces chunks) (uuid : Nat → String) :
    MeteredAs ((g.forwardGemini serde screen send uuid ctx req).ledger serde) leg chunks ↔
      Countable a.action (altSse req.query) chunks := by
  obtain ⟨rows, -, hledger⟩ := h.ledger hserde uuid
  rw [hledger, Countable]
  by_cases harray : (isStreaming a.action && !altSse req.query) = true
  · rw [if_pos harray, if_pos harray, meteredAs_concat rfl]
    exact and_congr eq_comm eq_comm
  · rw [if_neg harray, if_neg harray, observeChunks_eq, meteredAs_concat rfl]
    exact and_congr (foldCount_eq_iff chunks) (foldCount_eq_iff chunks)

end

/-! ## Two calls -/

def tableSerde (table : List (Text × Json)) : SerdeJson where
  fromSlice bytes := ((table.find? fun e => utf8Bytes e.1 = bytes).map (·.2)).elim (.error "expected value") .ok
  fromStr t := ((table.find? fun e => e.1 = t).map (·.2)).elim (.error "expected value") .ok

theorem tableSerde_oblivious {table : List (Text × Json)} (h : ∀ e ∈ table, IsAscii e.1) :
    (tableSerde table).Oblivious := by
  intro t t' v ht hv
  cases hf : table.find? fun e => e.1 = t with
  | none =>
    simp only [tableSerde, hf] at hv
    cases hv
  | some e =>
    have he : e.1 = t := by simpa using List.find?_some hf
    have hascii := h e (List.mem_of_find?_eq_some hf)
    rw [he] at hascii
    obtain rfl := ascii_eq hascii ht.symm
    exact ⟨v, hv, fun _ _ _ => rfl⟩

def usageChunk (prompt candidates : Nat) : Json :=
  .object [("usageMetadata", .object [("promptTokenCount", .number (.posInt prompt)),
    ("candidatesTokenCount", .number (.posInt candidates))])]

def chunkText (prompt candidates : Nat) : Text := (usageChunk prompt candidates).toText

def flashGateway : GeminiGateway where
  vertexNative := true
  routes := ⟨[("gemini-2.5-flash", [{ provider := "vertex", model := "gemini-2.5-flash" }])], [], [], []⟩

def flashLeg : ChainLeg := { provider := "vertex", model := "gemini-2.5-flash" }

def streamRequest (query : Option Text) : GeminiRequest :=
  ⟨"gemini-2.5-flash:streamGenerateContent".toList, query, .object []⟩

def unscreened (_model _route _action : String) (body : Json) : Except GatewayError (Json × Bool) := .ok (body, false)

def answerWith (pieces : List Bytes) (_leg : Nat) (_call : VertexCall) : Except GatewayError VertexReply :=
  .ok ⟨200, none, pieces.map .ok⟩

def flashAdmitted : AdmittedGemini :=
  ⟨"gemini-2.5-flash", "streamGenerateContent", ⟨some "gemini-2.5-flash", [flashLeg]⟩, flashLeg, .object [], false⟩

theorem flash_answered {serde : SerdeJson} {query : Option Text} {pieces : List Bytes} {chunks : List Json}
    (hwire : VertexWire serde "streamGenerateContent" (altSse query) pieces.flatten chunks) :
    Answered serde flashGateway unscreened (answerWith pieces) {} (streamRequest query) flashAdmitted 0 flashLeg pieces
      chunks where
  admitted := rfl
  metered := rfl
  served := rfl
  success := ⟨_, rfl, rfl, rfl⟩
  before := by
    intro j hj
    cases hj
  wire := by
    have hq : (altSse (streamRequest query).query && isStreaming flashAdmitted.action) = altSse query :=
      Bool.and_true _
    rw [hq]
    exact hwire

def arrayText : Text := (Json.array [usageChunk 7 3]).toText

def arraySerde : SerdeJson := tableSerde [(arrayText, .array [usageChunk 7 3])]

/-- Without `alt=sse` the counts of a stream are lost: it comes as an array. -/
theorem array_billed_as_zero :
    Answered arraySerde flashGateway unscreened (answerWith [utf8Bytes arrayText]) {} (streamRequest none)
        flashAdmitted 0 flashLeg [utf8Bytes arrayText] [usageChunk 7 3] ∧
      ¬ MeteredAs
        ((flashGateway.forwardGemini arraySerde unscreened (answerWith [utf8Bytes arrayText]) (fun _ => "id") {}
          (streamRequest none)).ledger arraySerde) flashLeg [usageChunk 7 3] := by
  have hserde : arraySerde.Oblivious := tableSerde_oblivious (by decide)
  have hread : arraySerde.fromSlice (utf8Bytes arrayText) = .ok (.array [usageChunk 7 3]) := by
    simp [arraySerde, tableSerde]
  have hanswer : Answered arraySerde flashGateway unscreened (answerWith [utf8Bytes arrayText]) {} (streamRequest none)
      flashAdmitted 0 flashLeg [utf8Bytes arrayText] [usageChunk 7 3] :=
    flash_answered (by rw [List.flatten_singleton]; exact .array hread)
  refine ⟨hanswer, ?_⟩
  obtain ⟨rows, -, hledger⟩ := hanswer.ledger hserde fun _ => "id"
  intro h
  obtain ⟨row, hrow, -, -, hin, -⟩ := h
  rw [hledger, List.getLast?_concat] at hrow
  cases hrow
  exact absurd hin (by decide)

def sseSerde : SerdeJson := tableSerde [(chunkText 7 1, usageChunk 7 1), (chunkText 7 3, usageChunk 7 3)]

def chunkLine (prompt candidates : Nat) (post : Text) : Text :=
  "data:".toList ++ [' '] ++ '\x7b' :: ((chunkText prompt candidates).drop 1).dropLast ++ '\x7d' :: post

def sseText : Text := chunkLine 7 1 ['\r'] ++ '\n' :: (['\r'] ++ '\n' :: chunkLine 7 3 [])

theorem sseText_body : SseBody sseSerde sseText [usageChunk 7 1, usageChunk 7 3] :=
  have hblank : SseLine sseSerde ['\r'] [] := .other (by decide) (by decide)
  have hfirst : SseLine sseSerde (chunkLine 7 1 ['\r']) [usageChunk 7 1] :=
    .data (by simp [IsBlank]) (by decide) (by simp [IsBlank]) rfl
  have hsecond : SseLine sseSerde (chunkLine 7 3 []) [usageChunk 7 3] :=
    .data (by simp [IsBlank]) (by decide) (by simp) rfl
  .line hfirst (.line hblank (.last hsecond))

theorem vertexLast_of_none {reported other : Json → Option Nat} {chunks : List Json} (h : ∀ c ∈ chunks, other c = none) :
    VertexLast reported other chunks := by
  intro pre c post n hsplit hother
  rw [h c (by rw [hsplit]; simp)] at hother
  cases hother

/-- An event stream in two pieces, cut inside a line, its last line unterminated. -/
theorem stream_metered :
    MeteredAs
      ((flashGateway.forwardGemini sseSerde unscreened
        (answerWith [(utf8Bytes sseText).take 40, (utf8Bytes sseText).drop 40]) (fun _ => "id") {}
        (streamRequest (some "prettyPrint=false&alt=sse".toList))).ledger sseSerde)
      flashLeg [usageChunk 7 1, usageChunk 7 3] :=
  have hflat : [(utf8Bytes sseText).take 40, (utf8Bytes sseText).drop 40].flatten = utf8Bytes sseText := by simp
  have hquery : altSse (some "prettyPrint=false&alt=sse".toList) = true := by decide
  have hwire : VertexWire sseSerde "streamGenerateContent" (altSse (some "prettyPrint=false&alt=sse".toList))
      [(utf8Bytes sseText).take 40, (utf8Bytes sseText).drop 40].flatten [usageChunk 7 1, usageChunk 7 3] := by
    rw [hflat, hquery]
    exact .stream sseText_body
  (passthrough_metered_iff (tableSerde_oblivious (by decide)) (flash_answered hwire) fun _ => "id").mpr
    (show Countable "streamGenerateContent" (altSse (some "prettyPrint=false&alt=sse".toList)) _ by
      rw [hquery]
      exact ⟨vertexLast_of_none (by decide), vertexLast_of_none (by decide)⟩)

end SynapseGateway
