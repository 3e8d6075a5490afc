import SynapseGateway.Lib.Utf8

/-!
# JSON values

`serde_json::Value` with `preserve_order`: an object is a list of members in
insertion order. Reading a missing key or index gives `null`, as indexing does.
-/

namespace SynapseGateway

open Utf8 (Text)

/-- A JSON number. A float is kept as the text it prints as. -/
inductive Number where
  | posInt (n : Nat)
  | negInt (n : Nat)
  | float (text : String) (nonempty : text ≠ "")
deriving DecidableEq, Repr

inductive Json where
  | null
  | bool (b : Bool)
  | number (n : Number)
  | string (s : Text)
  | array (xs : List Json)
  | object (members : List (String × Json))
deriving Repr

def str (s : String) : Json := .string s.toList

namespace Json

def get? (k : String) : Json → Option Json
  | .object members => members.lookup k
  | _ => none

def key (k : String) (v : Json) : Json := (v.get? k).getD .null

def index (i : Nat) : Json → Json
  | .array xs => xs[i]?.getD .null
  | _ => .null

def asStr : Json → Option Text
  | .string s => some s
  | _ => none

def asArray : Json → Option (List Json)
  | .array xs => some xs
  | _ => none

def asBool : Json → Option Bool
  | .bool b => some b
  | _ => none

def asU64 : Json → Option Nat
  | .number (.posInt n) => some n
  | _ => none

/-- Insertion into an object's members: an existing key keeps its place. -/
def insertMember (k : String) (v : Json) : List (String × Json) → List (String × Json)
  | [] => [(k, v)]
  | (k', v') :: members => if k = k' then (k, v) :: members else (k', v') :: insertMember k v members

def membersOf : Json → List (String × Json)
  | .object members => members
  | _ => []

def set (v : Json) (k : String) (value : Json) : Json := .object (insertMember k value v.membersOf)

theorem lookup_insertMember (k : String) (v : Json) (members : List (String × Json)) :
    (insertMember k v members).lookup k = some v := by
  induction members with
  | nil => simp [insertMember]
  | cons m members ih =>
    obtain ⟨k', v'⟩ := m
    unfold insertMember
    by_cases h : k = k'
    · simp [h]
    · rw [if_neg h, List.lookup_cons, beq_eq_false_iff_ne.mpr h]
      exact ih

theorem lookup_insertMember_ne {k k' : String} (hne : k ≠ k') (v : Json) (members : List (String × Json)) :
    (insertMember k' v members).lookup k = members.lookup k := by
  induction members with
  | nil => rw [insertMember, List.lookup_cons, beq_eq_false_iff_ne.mpr hne]
  | cons m members ih =>
    obtain ⟨k'', v''⟩ := m
    unfold insertMember
    by_cases h : k' = k''
    · subst h
      rw [if_pos rfl, List.lookup_cons, List.lookup_cons, beq_eq_false_iff_ne.mpr hne]
    · rw [if_neg h, List.lookup_cons, List.lookup_cons, ih]

@[simp] theorem key_set (v : Json) (k : String) (value : Json) : (v.set k value).key k = value := by
  show ((insertMember k value v.membersOf).lookup k).getD .null = value
  rw [lookup_insertMember]
  rfl

theorem key_set_ne {k k' : String} (hne : k ≠ k') (v value : Json) : (v.set k' value).key k = v.key k := by
  show ((insertMember k' value v.membersOf).lookup k).getD .null = _
  rw [lookup_insertMember_ne hne]
  cases v <;> rfl

/-! ## Printing -/

def escapeChar (c : Char) : Text :=
  if c = '"' then "\\\"".toList
  else if c = '\\' then "\\\\".toList
  else if c = '\x08' then "\\b".toList
  else if c = '\x0c' then "\\f".toList
  else if c = '\n' then "\\n".toList
  else if c = '\r' then "\\r".toList
  else if c = '\t' then "\\t".toList
  else if c.toNat < 0x20 then "\\u00".toList ++ [Nat.digitChar (c.toNat / 16), Nat.digitChar (c.toNat % 16)]
  else [c]

def quoted (s : Text) : Text := ['"'] ++ s.flatMap escapeChar ++ ['"']

end Json

def Number.toText : Number → Text
  | .posInt n => Nat.toDigits 10 n
  | .negInt n => '-' :: Nat.toDigits 10 n
  | .float text _ => text.toList

mutual

def Json.toText : Json → Text
  | .null => "null".toList
  | .bool b => if b then "true".toList else "false".toList
  | .number n => n.toText
  | .string s => Json.quoted s
  | .array xs => ['['] ++ Json.elements xs ++ [']']
  | .object members => ['\x7b'] ++ Json.members members ++ ['\x7d']

def Json.elements : List Json → Text
  | [] => []
  | [x] => x.toText
  | x :: xs => x.toText ++ [','] ++ Json.elements xs

def Json.members : List (String × Json) → Text
  | [] => []
  | [(k, x)] => Json.quoted k.toList ++ [':'] ++ x.toText
  | (k, x) :: xs => Json.quoted k.toList ++ [':'] ++ x.toText ++ [','] ++ Json.members xs

end

end SynapseGateway
