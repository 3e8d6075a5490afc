import SynapseGateway.Json
import SynapseGateway.Sse

/-!
# Reading JSON text

A reader of the values whose numbers are integers, and that it reads back what
`toText` prints.
-/

namespace SynapseGateway

open Utf8 (Text)

/-! ## Strings -/

/-- Where a reader is in a string: between characters, after a backslash, or in
the digits of a code. -/
inductive Escape where
  | plain
  | escaped
  | hex (need code : Nat)

def unescape (c : Char) : Option Char :=
  if c = '"' ∨ c = '\\' ∨ c = '/' then some c
  else if c = 'b' then some '\x08'
  else if c = 'f' then some '\x0c'
  else if c = 'n' then some '\n'
  else if c = 'r' then some '\r'
  else if c = 't' then some '\t'
  else none

def hexValue (c : Char) : Option Nat :=
  let n := c.toNat
  if 0x30 ≤ n ∧ n ≤ 0x39 then some (n - 0x30)
  else if 0x61 ≤ n ∧ n ≤ 0x66 then some (n - 0x57)
  else if 0x41 ≤ n ∧ n ≤ 0x46 then some (n - 0x37)
  else none

def pushChar (c : Char) (r : Text × Text) : Text × Text := (c :: r.1, r.2)

def readStringFrom : Escape → Text → Option (Text × Text)
  | _, [] => none
  | .plain, c :: t =>
    if c = '"' then some ([], t)
    else if c = '\\' then readStringFrom .escaped t
    else (readStringFrom .plain t).map (pushChar c)
  | .escaped, c :: t =>
    if c = 'u' then readStringFrom (.hex 4 0) t
    else (unescape c).bind fun d => (readStringFrom .plain t).map (pushChar d)
  | .hex need code, c :: t =>
    (hexValue c).bind fun v =>
      if need ≤ 1 then (readStringFrom .plain t).map (pushChar (Char.ofNat (code * 16 + v)))
      else readStringFrom (.hex (need - 1) (code * 16 + v)) t

theorem hexValue_digitChar {d : Nat} (h : d < 16) : hexValue (Nat.digitChar d) = some d := by
  have hall : ∀ d : Fin 16, hexValue (Nat.digitChar d) = some d.val := by decide
  exact hall ⟨d, h⟩

theorem read_control {c : Char} (h : c.toNat < 0x20) (t : Text) :
    readStringFrom .plain ("\\u00".toList ++ [Nat.digitChar (c.toNat / 16), Nat.digitChar (c.toNat % 16)] ++ t) =
      (readStringFrom .plain t).map (pushChar c) := by
  have hhi := hexValue_digitChar (show c.toNat / 16 < 16 by omega)
  have hlo := hexValue_digitChar (show c.toNat % 16 < 16 by omega)
  have hzero : hexValue '0' = some 0 := by decide
  have hcode : c.toNat / 16 * 16 + c.toNat % 16 = c.toNat := by omega
  show readStringFrom .plain ('\\' :: 'u' :: '0' :: '0' :: Nat.digitChar (c.toNat / 16) ::
    Nat.digitChar (c.toNat % 16) :: t) = _
  simp [readStringFrom, hhi, hlo, hzero, hcode, Char.ofNat_toNat]

/-- A reader takes back one character for each that was escaped. -/
theorem read_escapeChar (c : Char) (t : Text) :
    readStringFrom .plain (Json.escapeChar c ++ t) = (readStringFrom .plain t).map (pushChar c) := by
  unfold Json.escapeChar
  by_cases hquote : c = '"'
  · subst hquote
    rfl
  by_cases hback : c = '\\'
  · subst hback
    rfl
  rw [if_neg hquote, if_neg hback]
  by_cases h₁ : c = '\x08'
  · subst h₁
    rfl
  by_cases h₂ : c = '\x0c'
  · subst h₂
    rfl
  by_cases h₃ : c = '\n'
  · subst h₃
    rfl
  by_cases h₄ : c = '\r'
  · subst h₄
    rfl
  by_cases h₅ : c = '\t'
  · subst h₅
    rfl
  rw [if_neg h₁, if_neg h₂, if_neg h₃, if_neg h₄, if_neg h₅]
  by_cases hcontrol : c.toNat < 0x20
  · rw [if_pos hcontrol]
    exact read_control hcontrol t
  · rw [if_neg hcontrol]
    simp [readStringFrom, hquote, hback]

theorem read_quoted (s t : Text) :
    readStringFrom .plain (s.flatMap Json.escapeChar ++ '"' :: t) = some (s, t) := by
  induction s with
  | nil => rfl
  | cons c s ih =>
    rw [List.flatMap_cons, List.append_assoc, read_escapeChar, ih]
    rfl

/-! ## Values -/

def expect (c : Char) (t : Text) : Option Text := stripPrefix [c] t

def readDigits (sign : Nat → Number) (t : Text) : Option (Json × Text) :=
  let digits := t.takeWhile Char.isDigit
  if digits.isEmpty then none else some (.number (sign (Nat.ofDigitChars 10 digits 0)), t.dropWhile Char.isDigit)

def readNumber (t : Text) : Option (Json × Text) :=
  match expect '-' t with
  | some t => readDigits .negInt t
  | none => readDigits .posInt t

def readAtom (t : Text) : Option (Json × Text) :=
  match stripPrefix "null".toList t, stripPrefix "true".toList t, stripPrefix "false".toList t with
  | some rest, _, _ => some (.null, rest)
  | _, some rest, _ => some (.bool true, rest)
  | _, _, some rest => some (.bool false, rest)
  | none, none, none => readNumber t

def readKey (t : Text) : Option (String × Text) :=
  (expect '"' t).bind fun t => (readStringFrom .plain t).bind fun r =>
    (expect ':' r.2).map fun t => (String.ofList r.1, t)

mutual

def readValue : Nat → Text → Option (Json × Text)
  | 0, _ => none
  | _ + 1, [] => none
  | n + 1, c :: t =>
    if c = '"' then (readStringFrom .plain t).map fun r => (.string r.1, r.2)
    else if c = '[' then
      match expect ']' t with
      | some t => some (.array [], t)
      | none => (readItems n t).map fun r => (.array r.1, r.2)
    else if c = '\x7b' then
      match expect '\x7d' t with
      | some t => some (.object [], t)
      | none => (readFields n t).map fun r => (.object r.1, r.2)
    else readAtom (c :: t)

def readItems : Nat → Text → Option (List Json × Text)
  | 0, _ => none
  | n + 1, t =>
    (readValue n t).bind fun r =>
      match expect ',' r.2 with
      | some t => (readItems n t).map fun s => (r.1 :: s.1, s.2)
      | none => (expect ']' r.2).map fun t => ([r.1], t)

def readFields : Nat → Text → Option (List (String × Json) × Text)
  | 0, _ => none
  | n + 1, t =>
    (readKey t).bind fun k => (readValue n k.2).bind fun r =>
      match expect ',' r.2 with
      | some t => (readFields n t).map fun s => ((k.1, r.1) :: s.1, s.2)
      | none => (expect '\x7d' r.2).map fun t => ([(k.1, r.1)], t)

end

/-- The value that a whole text is. -/
def readJson (t : Text) : Option Json :=
  match readValue t.length t with
  | some (v, []) => some v
  | _ => none

/-! ## Reading back -/

mutual

/-- No number in the value is a float. -/
def Json.Exact : Json → Prop
  | .number (.float _ _) => False
  | .array xs => Json.ExactAll xs
  | .object members => Json.ExactMembers members
  | _ => True

def Json.ExactAll : List Json → Prop
  | [] => True
  | x :: xs => x.Exact ∧ Json.ExactAll xs

def Json.ExactMembers : List (String × Json) → Prop
  | [] => True
  | (_, x) :: members => x.Exact ∧ Json.ExactMembers members

end

@[simp] theorem expect_self (c : Char) (t : Text) : expect c (c :: t) = some t := by
  simp [expect, stripPrefix]

@[simp] theorem expect_ne {c d : Char} (h : c ≠ d) (t : Text) : expect c (d :: t) = none := by
  simp [expect, stripPrefix, h]

theorem read_key (k : String) (t : Text) : readKey (Json.quoted k.toList ++ ':' :: t) = some (k, t) := by
  have hq : Json.quoted k.toList ++ ':' :: t = '"' :: (k.toList.flatMap Json.escapeChar ++ '"' :: ':' :: t) := by
    simp [Json.quoted]
  simp [hq, readKey, read_quoted, String.ofList_toList]

/-- What follows a number does not go on with its digits. -/
def Ends (t : Text) : Prop := ∀ c ∈ t.head?, c.isDigit = false

theorem readDigits_toDigits (sign : Nat → Number) (n : Nat) {t : Text} (ht : Ends t) :
    readDigits sign (Nat.toDigits 10 n ++ t) = some (.number (sign n), t) := by
  have hd : ∀ c ∈ Nat.toDigits 10 n, c.isDigit = true := fun c => Nat.isDigit_of_mem_toDigits (by omega) (by omega)
  have htake : t.takeWhile Char.isDigit = [] ∧ t.dropWhile Char.isDigit = t := by
    cases t with
    | nil => exact ⟨rfl, rfl⟩
    | cons c t => simp [ht c rfl]
  simp [readDigits, List.takeWhile_append_of_pos hd, List.dropWhile_append_of_pos hd, htake, Nat.toDigits_ne_nil]

theorem toDigits_head (n : Nat) : ∃ c t, Nat.toDigits 10 n = c :: t ∧ c.isDigit = true := by
  cases h : Nat.toDigits 10 n with
  | nil => exact absurd h Nat.toDigits_ne_nil
  | cons c t => exact ⟨c, t, rfl, Nat.isDigit_of_mem_toDigits (by omega) (by omega) (h ▸ List.mem_cons_self)⟩

theorem read_posInt (n : Nat) {t : Text} (ht : Ends t) :
    readNumber (Nat.toDigits 10 n ++ t) = some (.number (.posInt n), t) := by
  have hsign : expect '-' (Nat.toDigits 10 n ++ t) = none := by
    obtain ⟨c, ds, hds, hc⟩ := toDigits_head n
    rw [hds]
    apply expect_ne
    rintro rfl
    cases hc
  rw [readNumber, hsign]
  exact readDigits_toDigits .posInt n ht

theorem read_negInt (n : Nat) {t : Text} (ht : Ends t) :
    readNumber ('-' :: Nat.toDigits 10 n ++ t) = some (.number (.negInt n), t) := by
  rw [readNumber, List.cons_append, expect_self]
  exact readDigits_toDigits .negInt n ht

/-- A text that begins as none of the words does is read as a number. -/
theorem readAtom_number {c : Char} {t : Text} (h : c.isDigit = true ∨ c = '-') :
    readAtom (c :: t) = readNumber (c :: t) := by
  have hne : ∀ d, d.isDigit = false → d ≠ '-' → d ≠ c := by
    rintro d hd hm rfl
    rw [hd] at h
    simp [hm] at h
  have hn := hne 'n' (by decide) (by decide)
  have ht := hne 't' (by decide) (by decide)
  have hf := hne 'f' (by decide) (by decide)
  simp [readAtom, stripPrefix, hn, ht, hf]

theorem read_number {v : Number} (hv : (Json.number v).Exact) {t : Text} (ht : Ends t) {n : Nat} (hn : 0 < n) :
    readValue n (v.toText ++ t) = some (.number v, t) := by
  have hvalue : ∀ c u, (c.isDigit = true ∨ c = '-') → readValue n (c :: u) = readNumber (c :: u) := by
    intro c u hc
    obtain ⟨n, rfl⟩ := Nat.exists_eq_add_of_lt hn
    have hne : ∀ d, d.isDigit = false → d ≠ '-' → c ≠ d := by
      rintro d hd hm rfl
      rw [hd] at hc
      simp [hm] at hc
    have hq := hne '"' (by decide) (by decide)
    have ha := hne '[' (by decide) (by decide)
    have ho := hne '\x7b' (by decide) (by decide)
    rw [← readAtom_number hc]
    simp [readValue, hq, ha, ho]
  cases v with
  | posInt m =>
    obtain ⟨c, ds, hds, hc⟩ := toDigits_head m
    have hread := read_posInt m ht
    rw [hds] at hread
    rw [Number.toText, hds, List.cons_append, hvalue c _ (.inl hc)]
    exact hread
  | negInt m =>
    rw [Number.toText, List.cons_append, hvalue '-' _ (.inr rfl)]
    exact read_negInt m ht
  | float text hne => exact hv.elim

/-- A value's text is not empty, and does not close an array. -/
theorem toText_head {v : Json} (hv : v.Exact) : ∃ c t, v.toText = c :: t ∧ c ≠ ']' := by
  cases v with
  | null => exact ⟨_, _, rfl, by decide⟩
  | bool b => cases b <;> exact ⟨_, _, rfl, by decide⟩
  | number n =>
    cases n with
    | posInt n =>
      obtain ⟨c, t, h, hc⟩ := toDigits_head n
      refine ⟨c, t, h, ?_⟩
      rintro rfl
      cases hc
    | negInt n => exact ⟨_, _, rfl, by decide⟩
    | float text hne => exact hv.elim
  | string s => exact ⟨'"', _, rfl, by decide⟩
  | array xs => exact ⟨'[', _, rfl, by decide⟩
  | object members => exact ⟨'\x7b', _, rfl, by decide⟩

theorem ends_cons {c : Char} (h : c.isDigit = false) (t : Text) : Ends (c :: t) := by
  intro d hd
  cases hd
  exact h

theorem elements_cons (x x' : Json) (xs : List Json) :
    Json.elements (x :: x' :: xs) = x.toText ++ ',' :: Json.elements (x' :: xs) := by
  simp [Json.elements]

theorem members_cons (k k' : String) (x x' : Json) (members : List (String × Json)) :
    Json.members ((k, x) :: (k', x') :: members) =
      Json.quoted k.toList ++ ':' :: (x.toText ++ ',' :: Json.members ((k', x') :: members)) := by
  simp [Json.members]

mutual

theorem readValue_toText : ∀ {v : Json} {t : Text} {n : Nat}, v.Exact → Ends t → v.toText.length ≤ n →
    readValue n (v.toText ++ t) = some (v, t)
  | v, t, 0, hv, _, hn => by
    obtain ⟨c, u, h, -⟩ := toText_head hv
    simp [h] at hn
  | .null, t, n + 1, _, _, _ => by simp [Json.toText, readValue, readAtom, stripPrefix]
  | .bool true, t, n + 1, _, _, _ => by simp [Json.toText, readValue, readAtom, stripPrefix]
  | .bool false, t, n + 1, _, _, _ => by simp [Json.toText, readValue, readAtom, stripPrefix]
  | .number v, t, n + 1, hv, ht, _ => read_number hv ht (Nat.succ_pos n)
  | .string s, t, n + 1, _, _, _ => by simp [Json.toText, Json.quoted, readValue, read_quoted]
  | .array [], t, n + 1, _, _, _ => by simp [Json.toText, Json.elements, readValue]
  | .array (x :: xs), t, n + 1, hv, _, hn => by
    rw [Json.Exact] at hv
    simp only [Json.toText, List.cons_append, List.nil_append, List.length_append, List.length_cons, List.length_nil] at hn
    have hread := readItems_elements (t := t) (n := n) hv (by omega)
    obtain ⟨c, u, hc, hne⟩ := toText_head hv.1
    have hopen : expect ']' (Json.elements (x :: xs) ++ ']' :: t) = none := by
      have hhead : ∃ u', Json.elements (x :: xs) = c :: u' := by
        cases xs with
        | nil => exact ⟨u, hc⟩
        | cons x' xs => exact ⟨u ++ ',' :: Json.elements (x' :: xs), by simp [elements_cons, hc]⟩
      obtain ⟨u', hu'⟩ := hhead
      rw [hu']
      exact expect_ne hne.symm _
    simp [Json.toText, readValue, hopen, hread]
  | .object [], t, n + 1, _, _, _ => by simp [Json.toText, Json.members, readValue]
  | .object ((k, x) :: members), t, n + 1, hv, _, hn => by
    rw [Json.Exact] at hv
    simp only [Json.toText, List.cons_append, List.nil_append, List.length_append, List.length_cons, List.length_nil] at hn
    have hread := readFields_members (t := t) (n := n) hv (by omega)
    have hopen : expect '\x7d' (Json.members ((k, x) :: members) ++ '\x7d' :: t) = none := by
      cases members <;> simp [Json.members, Json.quoted]
    simp [Json.toText, readValue, hopen, hread]

theorem readItems_elements : ∀ {x : Json} {xs : List Json} {t : Text} {n : Nat}, Json.ExactAll (x :: xs) →
    (Json.elements (x :: xs)).length < n → readItems n (Json.elements (x :: xs) ++ ']' :: t) = some (x :: xs, t)
  | x, [], t, n + 1, hx, hn => by
    have hread := readValue_toText (v := x) (t := ']' :: t) (n := n) hx.1 (ends_cons (by decide) t) (by
      rw [Json.elements] at hn
      omega)
    simp [Json.elements, readItems, hread]
  | x, x' :: xs, t, n + 1, hx, hn => by
    simp only [elements_cons, List.length_append, List.length_cons] at hn
    have hread := readValue_toText (v := x) (t := ',' :: (Json.elements (x' :: xs) ++ ']' :: t)) (n := n) hx.1
      (ends_cons (by decide) _) (by omega)
    have hrest := readItems_elements (t := t) (n := n) hx.2 (by omega)
    simp [elements_cons, readItems, hread, hrest]

theorem readFields_members : ∀ {k : String} {x : Json} {members : List (String × Json)} {t : Text} {n : Nat},
    Json.ExactMembers ((k, x) :: members) → (Json.members ((k, x) :: members)).length < n →
      readFields n (Json.members ((k, x) :: members) ++ '\x7d' :: t) = some ((k, x) :: members, t)
  | k, x, [], t, n + 1, hx, hn => by
    simp only [Json.members, List.length_append, List.length_cons, List.length_nil] at hn
    have hread := readValue_toText (v := x) (t := '\x7d' :: t) (n := n) hx.1 (ends_cons (by decide) t) (by omega)
    rw [Json.members]
    simp only [List.append_assoc, List.cons_append, List.nil_append]
    simp [readFields, read_key, hread]
  | k, x, (k', x') :: members, t, n + 1, hx, hn => by
    simp only [members_cons, List.length_append, List.length_cons] at hn
    have hread := readValue_toText (v := x) (t := ',' :: (Json.members ((k', x') :: members) ++ '\x7d' :: t)) (n := n)
      hx.1 (ends_cons (by decide) _) (by omega)
    have hrest := readFields_members (t := t) (n := n) hx.2 (by omega)
    simp [members_cons, readFields, read_key, hread, hrest]

end

/-! ## The characters of a text -/

def Printable (t : Text) : Prop := ∀ c ∈ t, 0x20 ≤ c.toNat

theorem Printable.append {a b : Text} (ha : Printable a) (hb : Printable b) : Printable (a ++ b) := by
  intro c hc
  rcases List.mem_append.mp hc with hc | hc
  · exact ha c hc
  · exact hb c hc

theorem Printable.cons {c : Char} {t : Text} (hc : 0x20 ≤ c.toNat) (ht : Printable t) : Printable (c :: t) := by
  intro d hd
  rcases List.mem_cons.mp hd with rfl | hd
  · exact hc
  · exact ht d hd

instance (t : Text) : Decidable (Printable t) := List.decidableBAll _ t

theorem printable_digitChar (n : Nat) : 0x20 ≤ (Nat.digitChar n).toNat := by
  have hall : ∀ d : Fin 16, 0x20 ≤ (Nat.digitChar d).toNat := by decide
  by_cases h : n < 16
  · exact hall ⟨n, h⟩
  · rw [Nat.digitChar_eq_star.mpr (by omega)]
    decide

theorem printable_escapeChar (c : Char) : Printable (Json.escapeChar c) := by
  unfold Json.escapeChar
  split
  · decide
  split
  · decide
  split
  · decide
  split
  · decide
  split
  · decide
  split
  · decide
  split
  · decide
  split
  · refine Printable.append (by decide) ?_
    intro d hd
    simp only [List.mem_cons, List.not_mem_nil, or_false] at hd
    rcases hd with rfl | rfl <;> exact printable_digitChar _
  · intro d hd
    obtain rfl := List.mem_singleton.mp hd
    omega

theorem printable_quoted (s : Text) : Printable (Json.quoted s) := by
  refine (Printable.append (by decide) ?_).append (by decide)
  intro c hc
  obtain ⟨d, -, hd⟩ := List.mem_flatMap.mp hc
  exact printable_escapeChar d c hd

theorem printable_toDigits (n : Nat) : Printable (Nat.toDigits 10 n) := by
  intro c hc
  have hd := Nat.isDigit_of_mem_toDigits (b := 10) (by omega) (by omega) hc
  simp only [Char.isDigit, Bool.and_eq_true, decide_eq_true_eq] at hd
  exact Nat.le_trans (by decide) (UInt32.le_iff_toNat_le.mp hd.1)

mutual

/-- The text of a value is in one line. -/
theorem printable_toText : ∀ {v : Json}, v.Exact → Printable v.toText
  | .null, _ => by decide
  | .bool true, _ => by decide
  | .bool false, _ => by decide
  | .number (.posInt n), _ => printable_toDigits n
  | .number (.negInt n), _ => (printable_toDigits n).cons (by decide)
  | .string s, _ => printable_quoted s
  | .array xs, hv => by
    rw [Json.toText]
    exact (Printable.append (by decide) (printable_elements hv)).append (by decide)
  | .object members, hv => by
    rw [Json.toText]
    exact (Printable.append (by decide) (printable_members hv)).append (by decide)

theorem printable_elements : ∀ {xs : List Json}, Json.ExactAll xs → Printable (Json.elements xs)
  | [], _ => by decide
  | [_], hx => printable_toText hx.1
  | x :: x' :: xs, hx => by
    rw [elements_cons]
    exact (printable_toText hx.1).append ((printable_elements hx.2).cons (by decide))

theorem printable_members : ∀ {members : List (String × Json)}, Json.ExactMembers members →
    Printable (Json.members members)
  | [], _ => by decide
  | [(k, x)], hx => ((printable_quoted k.toList).append (by decide)).append (printable_toText hx.1)
  | (k, x) :: (k', x') :: members, hx => by
    rw [members_cons]
    exact (printable_quoted k.toList).append
      (((printable_toText hx.1).append ((printable_members hx.2).cons (by decide))).cons (by decide))

end

/-- A value is read back from its text. -/
theorem readJson_toText {v : Json} (hv : v.Exact) : readJson v.toText = some v := by
  have h := readValue_toText (t := []) hv (fun _ h => by cases h) (Nat.le_refl _)
  rw [List.append_nil] at h
  rw [readJson, h]

end SynapseGateway
