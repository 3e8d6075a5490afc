import Mathlib.Data.List.DropRight

/-!
# Absolute URLs as text

The scheme of a URL is what precedes its first `://`, the authority what
follows up to the next `/`, `?` or `#`. Text put behind a URL becomes part of
its authority unless something delimits it.
-/

namespace Url

def splitScheme : List Char → Option (List Char × List Char)
  | [] => none
  | ':' :: '/' :: '/' :: t => some ([], t)
  | c :: t => (splitScheme t).map fun (s, r) => (c :: s, r)

def delimiter (c : Char) : Bool := c == '/' || c == '?' || c == '#'

def scheme (u : List Char) : Option (List Char) := (splitScheme u).map (·.1)

def authority (u : List Char) : Option (List Char) := (splitScheme u).map fun (_, r) => r.takeWhile (!delimiter ·)

structure Absolute where
  scheme : List Char
  authority : List Char
  path : List Char
  no_colon : ':' ∉ scheme
  nonempty : authority ≠ []
  undelimited : ∀ c ∈ authority, delimiter c = false
  rooted : path = [] ∨ path.head? = some '/'

def Absolute.text (u : Absolute) : List Char := u.scheme ++ "://".toList ++ u.authority ++ u.path

theorem splitScheme_text {r : List Char} : ∀ {s : List Char}, ':' ∉ s → splitScheme (s ++ "://".toList ++ r) = some (s, r)
  | [], _ => rfl
  | c :: s, h => by
    have hc : c ≠ ':' := fun hc => h (hc ▸ List.mem_cons_self ..)
    have ih := splitScheme_text (r := r) (s := s) fun hs => h (List.mem_cons_of_mem _ hs)
    rw [List.cons_append, List.cons_append, splitScheme, ih]
    · rfl
    · intro t hcolon
      exact absurd hcolon hc

theorem takeWhile_authority {a x : List Char} (h : ∀ c ∈ a, delimiter c = false) :
    (a ++ x).takeWhile (!delimiter ·) = a ++ x.takeWhile (!delimiter ·) :=
  List.takeWhile_append_of_pos fun c hc => by rw [h c hc]; rfl

/-- Text is delimited if nothing of it is read on as authority. -/
def Delimited (x : List Char) : Prop := ∀ c ∈ x.head?, delimiter c = true

theorem takeWhile_delimited (x : List Char) : x.takeWhile (!delimiter ·) = [] ↔ Delimited x := by
  cases x with
  | nil => simp [Delimited]
  | cons c x =>
    rw [List.takeWhile_cons]
    unfold Delimited
    cases hc : delimiter c <;> simp [hc]

variable (u : Absolute) (x : List Char)

theorem scheme_append : scheme (u.text ++ x) = some u.scheme := by
  unfold scheme Absolute.text
  rw [List.append_assoc, List.append_assoc, splitScheme_text u.no_colon]
  rfl

theorem authority_append : authority (u.text ++ x) = some (u.authority ++ (u.path ++ x).takeWhile (!delimiter ·)) := by
  unfold authority Absolute.text
  rw [List.append_assoc, List.append_assoc, splitScheme_text u.no_colon, Option.map_some]
  simp only
  rw [takeWhile_authority u.undelimited]

/-- Text behind a URL leaves its authority alone exactly when the URL has a
path or the text is delimited. -/
theorem authority_append_iff : authority (u.text ++ x) = some u.authority ↔ u.path ≠ [] ∨ Delimited x := by
  rw [authority_append, Option.some.injEq, List.append_right_eq_self, takeWhile_delimited]
  by_cases hp : u.path = []
  · rw [hp, List.nil_append]
    exact ⟨.inr, fun h => h.resolve_left (fun h => h rfl)⟩
  · refine iff_of_true ?_ (.inl hp)
    have hroot := u.rooted.resolve_left hp
    obtain ⟨c, p, hcp⟩ := List.exists_cons_of_ne_nil hp
    intro d hd
    rw [hcp] at hroot hd
    cases hroot
    cases hd
    rfl

/-! ## Trailing slashes -/

theorem rdropWhile_append {p : Char → Bool} {a b : List Char} (ha : ∀ h : a ≠ [], ¬ p (a.getLast h)) :
    (a ++ b).rdropWhile p = a ++ b.rdropWhile p := by
  have hself : a.rdropWhile p = a := List.rdropWhile_eq_self_iff.mpr ha
  unfold List.rdropWhile at hself ⊢
  rw [List.reverse_append, List.dropWhile_append]
  by_cases hb : (b.reverse.dropWhile p).isEmpty = true
  · rw [if_pos hb, hself, List.isEmpty_iff.mp hb, List.reverse_nil, List.append_nil]
  · rw [if_neg hb, List.reverse_append, List.reverse_reverse]

def Absolute.trimmed : Absolute where
  scheme := u.scheme
  authority := u.authority
  path := u.path.rdropWhile (· == '/')
  no_colon := u.no_colon
  nonempty := u.nonempty
  undelimited := u.undelimited
  rooted := by
    by_cases hp : u.path.rdropWhile (· == '/') = []
    · exact .inl hp
    · right
      obtain ⟨t, ht⟩ := List.rdropWhile_prefix (· == '/') u.path
      have hroot := u.rooted.resolve_left fun h => hp (by rw [h]; rfl)
      rw [← ht] at hroot
      rwa [List.head?_append_of_ne_nil _ hp] at hroot

theorem trimmed_text : u.text.rdropWhile (· == '/') = u.trimmed.text := by
  unfold Absolute.text
  rw [rdropWhile_append]
  · rfl
  · intro h
    rw [List.getLast_append_of_ne_nil _ u.nonempty]
    intro hslash
    have hd := u.undelimited _ (List.getLast_mem u.nonempty)
    rw [delimiter, hslash] at hd
    cases hd

end Url
