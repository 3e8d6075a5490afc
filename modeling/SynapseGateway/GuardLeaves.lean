import SynapseGateway.Json
import SynapseGateway.Lib.Traversal
import SynapseGateway.Segment

/-!
# The text leaves of a passthrough body

The leaves the guard scans are references into the body: a mask is written back
in place. Each extraction is a traversal, so what was written is what the next
extraction reads.
-/

namespace SynapseGateway

open Utf8 (Text)
open Traversal (Fields)

abbrev Members := List (String × Json)

/-! ## Strings -/

def textLeaf : Traversal Json Text where
  read
    | .string s => [s]
    | _ => []
  write
    | .string s, ts => .string (ts.headD s)
    | v, _ => v
  read_write v ts h := by
    cases v with
    | string s =>
      obtain ⟨t, rfl⟩ := List.length_eq_one_iff.mp h
      rfl
    | _ => exact (List.length_eq_zero_iff.mp h).symm
  write_read v := by cases v <;> rfl

section
variable (skip : String → Bool)

mutual

def readStrings : Json → List Text
  | .string s => [s]
  | .array xs => readElements xs
  | .object ms => readMembers ms
  | _ => []

def readElements : List Json → List Text
  | [] => []
  | x :: xs => readStrings x ++ readElements xs

def readMembers : List (String × Json) → List Text
  | [] => []
  | (k, x) :: ms => (if skip k then [] else readStrings x) ++ readMembers ms

end

mutual

def writeStrings : Json → List Text → Json
  | .string s, ts => .string (ts.headD s)
  | .array xs, ts => .array (writeElements xs ts)
  | .object ms, ts => .object (writeMembers ms ts)
  | v, _ => v

def writeElements : List Json → List Text → List Json
  | [], _ => []
  | x :: xs, ts =>
    let n := (readStrings skip x).length
    writeStrings x (ts.take n) :: writeElements xs (ts.drop n)

def writeMembers : List (String × Json) → List Text → List (String × Json)
  | [], _ => []
  | (k, x) :: ms, ts =>
    if skip k then (k, x) :: writeMembers ms ts
    else
      let n := (readStrings skip x).length
      (k, writeStrings x (ts.take n)) :: writeMembers ms (ts.drop n)

end

end

section
variable {skip : String → Bool}

mutual

theorem readStrings_write : ∀ (v : Json) {ts : List Text}, ts.length = (readStrings skip v).length →
    readStrings skip (writeStrings skip v ts) = ts
  | .string s, ts, h => by
    obtain ⟨t, rfl⟩ := List.length_eq_one_iff.mp h
    rfl
  | .array xs, _, h => readElements_write xs h
  | .object ms, _, h => readMembers_write ms h
  | .null, _, h => (List.length_eq_zero_iff.mp h).symm
  | .bool b, _, h => (List.length_eq_zero_iff.mp h).symm
  | .number n, _, h => (List.length_eq_zero_iff.mp h).symm

theorem readElements_write : ∀ (xs : List Json) {ts : List Text}, ts.length = (readElements skip xs).length →
    readElements skip (writeElements skip xs ts) = ts
  | [], _, h => (List.length_eq_zero_iff.mp h).symm
  | x :: xs, ts, h => by
    rw [readElements, List.length_append] at h
    rw [writeElements, readElements, readStrings_write x (by rw [List.length_take]; omega),
      readElements_write xs (by rw [List.length_drop]; omega), List.take_append_drop]

theorem readMembers_write : ∀ (ms : List (String × Json)) {ts : List Text},
    ts.length = (readMembers skip ms).length → readMembers skip (writeMembers skip ms ts) = ts
  | [], _, h => (List.length_eq_zero_iff.mp h).symm
  | (k, x) :: ms, ts, h => by
    rw [readMembers, List.length_append] at h
    rw [writeMembers]
    by_cases hk : skip k = true
    · rw [if_pos hk] at h ⊢
      rw [readMembers, if_pos hk, List.nil_append]
      exact readMembers_write ms (by simpa using h)
    · rw [if_neg hk] at h ⊢
      rw [readMembers, if_neg hk, readStrings_write x (by rw [List.length_take]; omega),
        readMembers_write ms (by rw [List.length_drop]; omega), List.take_append_drop]

end

mutual

theorem writeStrings_read : ∀ v : Json, writeStrings skip v (readStrings skip v) = v
  | .string _ => rfl
  | .array xs => congrArg Json.array (writeElements_read xs)
  | .object ms => congrArg Json.object (writeMembers_read ms)
  | .null => rfl
  | .bool _ => rfl
  | .number _ => rfl

theorem writeElements_read : ∀ xs : List Json, writeElements skip xs (readElements skip xs) = xs
  | [] => rfl
  | x :: xs => by
    rw [readElements, writeElements, List.take_left, List.drop_left, writeStrings_read x, writeElements_read xs]

theorem writeMembers_read : ∀ ms : List (String × Json), writeMembers skip ms (readMembers skip ms) = ms
  | [] => rfl
  | (k, x) :: ms => by
    rw [readMembers, writeMembers]
    by_cases hk : skip k = true
    · rw [if_pos hk, if_pos hk, List.nil_append, writeMembers_read ms]
    · rw [if_neg hk, if_neg hk]
      simp only [List.take_left, List.drop_left, writeStrings_read x, writeMembers_read ms]

end

end

/-- Every string of a value, except under the keys in `skip`. -/
def stringsExcept (skip : String → Bool) : Traversal Json Text where
  read := readStrings skip
  write := writeStrings skip
  read_write v _ h := readStrings_write v h
  write_read := writeStrings_read

def stringLeaves : Traversal Json Text := stringsExcept fun _ => false

/-- Keys whose values are encoded media or media references, not text. -/
def MEDIA_KEYS : List String :=
  ["bytesBase64Encoded", "gcsUri", "inlineData", "inline_data", "fileData", "file_data"]

/-- One segment of every string leaf in a body whose shape is not known. -/
def bodyLeaves : Traversal Json Text := stringsExcept fun k => MEDIA_KEYS.contains k

/-! ## Gemini bodies -/

section
variable (T : Traversal Members Text)

/-- The leaves of an object; any other value has none. -/
def asObjectMut : Traversal Json Text where
  read
    | .object ms => T.read ms
    | _ => []
  write
    | .object ms, ts => .object (T.write ms ts)
    | v, _ => v
  read_write v ts h := by
    cases v with
    | object ms => exact T.read_write ms ts h
    | _ => exact (List.length_eq_zero_iff.mp h).symm
  write_read v := by
    cases v with
    | object ms => exact congrArg Json.object (T.write_read ms)
    | _ => rfl

/-- The elements of a repeated field sent as an array, or the field itself when
sent as a single object. -/
def itemsMut : Traversal Json Text where
  read
    | .array xs => (asObjectMut T).each.read xs
    | .object ms => T.read ms
    | _ => []
  write
    | .array xs, ts => .array ((asObjectMut T).each.write xs ts)
    | .object ms, ts => .object (T.write ms ts)
    | v, _ => v
  read_write v ts h := by
    cases v with
    | array xs => exact (asObjectMut T).each.read_write xs ts h
    | object ms => exact T.read_write ms ts h
    | _ => exact (List.length_eq_zero_iff.mp h).symm
  write_read v := by
    cases v with
    | array xs => exact congrArg Json.array ((asObjectMut T).each.write_read xs)
    | object ms => exact congrArg Json.object (T.write_read ms)
    | _ => rfl

end

def functionResponse (key : String) : Fields String Json Text :=
  .member key (asObjectMut (Fields.member "response" stringLeaves).toTraversal)

def geminiPart : Fields String Json Text :=
  (Fields.member "text" textLeaf).and
    ((functionResponse "functionResponse").and (functionResponse "function_response") (by decide)) (by decide)

def partsLeaves : Traversal Json Text := itemsMut geminiPart.toTraversal

def geminiParts : Fields String Json Text := .member "parts" partsLeaves

def isModelTurn (ms : Members) : Bool :=
  match ms.lookup "role" with
  | some (.string r) => r.map Char.toLower == "model".toList
  | _ => false

def geminiTurn : Traversal Members Text :=
  geminiParts.except isModelTurn fun ms ts => by
    unfold isModelTurn
    rw [geminiParts.frame (by decide)]

/-- The system instruction and the turns of a body itself. -/
def ownText : Fields String Json Text :=
  (Fields.member "systemInstruction" (asObjectMut geminiParts.toTraversal)).and
    ((Fields.member "system_instruction" (asObjectMut geminiParts.toTraversal)).and
      ((Fields.member "contents" (itemsMut geminiTurn)).and (Fields.member "content" (itemsMut geminiParts.toTraversal))
        (by decide))
      (by decide))
    (by decide)

mutual

/-- The leaves of a body: its own, then those of each entry of `requests`. -/
def geminiText : Json → List Text
  | .object ms => ownText.read ms ++ readRequests ms
  | _ => []

def readRequests : List (String × Json) → List Text
  | [] => []
  | (k, v) :: ms => if k = "requests" then readBatch v else readRequests ms

def readBatch : Json → List Text
  | .array xs => readEntries xs
  | .object ms => ownText.read ms ++ readRequests ms
  | _ => []

def readEntries : List Json → List Text
  | [] => []
  | x :: xs => geminiText x ++ readEntries xs

end

mutual

def writeGeminiText : Json → List Text → Json
  | .object ms, ts =>
    let n := (ownText.read ms).length
    .object (ownText.write (writeRequests ms (ts.drop n)) (ts.take n))
  | v, _ => v

def writeRequests : List (String × Json) → List Text → List (String × Json)
  | [], _ => []
  | (k, v) :: ms, ts => if k = "requests" then (k, writeBatch v ts) :: ms else (k, v) :: writeRequests ms ts

def writeBatch : Json → List Text → Json
  | .array xs, ts => .array (writeEntries xs ts)
  | .object ms, ts =>
    let n := (ownText.read ms).length
    .object (ownText.write (writeRequests ms (ts.drop n)) (ts.take n))
  | v, _ => v

def writeEntries : List Json → List Text → List Json
  | [], _ => []
  | x :: xs, ts =>
    let n := (geminiText x).length
    writeGeminiText x (ts.take n) :: writeEntries xs (ts.drop n)

end

theorem readRequests_lookup (ms : Members) : readRequests ms = (ms.lookup "requests").elim [] readBatch := by
  induction ms with
  | nil => rfl
  | cons m ms ih =>
    obtain ⟨k, v⟩ := m
    rw [readRequests]
    by_cases h : k = "requests"
    · simp [h]
    · rw [if_neg h, List.lookup_cons, beq_false_of_ne (Ne.symm h)]
      exact ih

theorem lookup_writeRequests {k : String} (h : k ≠ "requests") (ms : Members) (ts : List Text) :
    (writeRequests ms ts).lookup k = ms.lookup k := by
  induction ms with
  | nil => rfl
  | cons m ms ih =>
    obtain ⟨k', v⟩ := m
    rw [writeRequests]
    by_cases hk : k' = "requests"
    · rw [if_pos hk, List.lookup_cons, List.lookup_cons, beq_false_of_ne (hk ▸ h)]
    · rw [if_neg hk, List.lookup_cons, List.lookup_cons, ih]

theorem ownText_writeRequests (ms : Members) (ts : List Text) :
    ownText.read (writeRequests ms ts) = ownText.read ms := by
  apply ownText.reads
  intro k hk
  apply lookup_writeRequests
  intro h
  subst h
  exact absurd hk (by decide)

theorem readRequests_ownText (ms : Members) (ts : List Text) : readRequests (ownText.write ms ts) = readRequests ms := by
  rw [readRequests_lookup, readRequests_lookup, ownText.frame (by decide)]

section
variable {ms : Members}

/-- An object, given the law for its `requests`. -/
theorem read_write_object {ts : List Text}
    (hreq : ∀ {ts : List Text}, ts.length = (readRequests ms).length → readRequests (writeRequests ms ts) = ts)
    (h : ts.length = (ownText.read ms ++ readRequests ms).length) :
    let ms' := ownText.write (writeRequests ms (ts.drop (ownText.read ms).length)) (ts.take (ownText.read ms).length)
    ownText.read ms' ++ readRequests ms' = ts := by
  rw [List.length_append] at h
  simp only
  rw [readRequests_ownText, hreq (by rw [List.length_drop]; omega),
    ownText.read_write _ _ (by rw [ownText_writeRequests, List.length_take]; omega), List.take_append_drop]

theorem write_read_object (hreq : writeRequests ms (readRequests ms) = ms) :
    let ts := ownText.read ms ++ readRequests ms
    ownText.write (writeRequests ms (ts.drop (ownText.read ms).length)) (ts.take (ownText.read ms).length) = ms := by
  simp only [List.take_left, List.drop_left, hreq, ownText.write_read]

end

mutual

theorem geminiText_write : ∀ (v : Json) {ts : List Text}, ts.length = (geminiText v).length →
    geminiText (writeGeminiText v ts) = ts
  | .object ms, _, h => read_write_object (readRequests_write ms) h
  | .array _, _, h => (List.length_eq_zero_iff.mp h).symm
  | .string _, _, h => (List.length_eq_zero_iff.mp h).symm
  | .null, _, h => (List.length_eq_zero_iff.mp h).symm
  | .bool _, _, h => (List.length_eq_zero_iff.mp h).symm
  | .number _, _, h => (List.length_eq_zero_iff.mp h).symm

theorem readRequests_write : ∀ (ms : List (String × Json)) {ts : List Text}, ts.length = (readRequests ms).length →
    readRequests (writeRequests ms ts) = ts
  | [], _, h => (List.length_eq_zero_iff.mp h).symm
  | (k, v) :: ms, ts, h => by
    rw [readRequests] at h
    rw [writeRequests]
    by_cases hk : k = "requests"
    · rw [if_pos hk] at h ⊢
      rw [readRequests, if_pos hk, readBatch_write v h]
    · rw [if_neg hk] at h ⊢
      rw [readRequests, if_neg hk, readRequests_write ms h]

theorem readBatch_write : ∀ (v : Json) {ts : List Text}, ts.length = (readBatch v).length →
    readBatch (writeBatch v ts) = ts
  | .array xs, _, h => readEntries_write xs h
  | .object ms, _, h => read_write_object (readRequests_write ms) h
  | .string _, _, h => (List.length_eq_zero_iff.mp h).symm
  | .null, _, h => (List.length_eq_zero_iff.mp h).symm
  | .bool _, _, h => (List.length_eq_zero_iff.mp h).symm
  | .number _, _, h => (List.length_eq_zero_iff.mp h).symm

theorem readEntries_write : ∀ (xs : List Json) {ts : List Text}, ts.length = (readEntries xs).length →
    readEntries (writeEntries xs ts) = ts
  | [], _, h => (List.length_eq_zero_iff.mp h).symm
  | x :: xs, ts, h => by
    rw [readEntries, List.length_append] at h
    rw [writeEntries, readEntries, geminiText_write x (by rw [List.length_take]; omega),
      readEntries_write xs (by rw [List.length_drop]; omega), List.take_append_drop]

end

mutual

theorem writeGeminiText_read : ∀ v : Json, writeGeminiText v (geminiText v) = v
  | .object ms => congrArg Json.object (write_read_object (writeRequests_read ms))
  | .array _ => rfl
  | .string _ => rfl
  | .null => rfl
  | .bool _ => rfl
  | .number _ => rfl

theorem writeRequests_read : ∀ ms : List (String × Json), writeRequests ms (readRequests ms) = ms
  | [] => rfl
  | (k, v) :: ms => by
    rw [readRequests, writeRequests]
    by_cases hk : k = "requests"
    · rw [if_pos hk, if_pos hk, writeBatch_read v]
    · rw [if_neg hk, if_neg hk, writeRequests_read ms]

theorem writeBatch_read : ∀ v : Json, writeBatch v (readBatch v) = v
  | .array xs => congrArg Json.array (writeEntries_read xs)
  | .object ms => congrArg Json.object (write_read_object (writeRequests_read ms))
  | .string _ => rfl
  | .null => rfl
  | .bool _ => rfl
  | .number _ => rfl

theorem writeEntries_read : ∀ xs : List Json, writeEntries xs (readEntries xs) = xs
  | [] => rfl
  | x :: xs => by
    rw [readEntries, writeEntries, List.take_left, List.drop_left, writeGeminiText_read x, writeEntries_read xs]

end

/-- One segment for a Gemini request body: the system instruction's text, plus
every non-model turn's text parts and the strings of its function responses. -/
def geminiLeaves : Traversal Json Text where
  read := geminiText
  write := writeGeminiText
  read_write v _ h := geminiText_write v h
  write_read := writeGeminiText_read

end SynapseGateway
