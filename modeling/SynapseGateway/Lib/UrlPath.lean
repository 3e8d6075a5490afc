import SynapseGateway.Lib.Url

/-!
# What follows an authority

The path of a URL ends at its first `?` or `#`, and the query at the next `#`.
Segments that hold no delimiter, put behind a URL that has a path only, are read
back as they were put there.
-/

namespace Url

def endsPath (c : Char) : Bool := c == '?' || c == '#'

def afterAuthority (u : List Char) : Option (List Char) :=
  (splitScheme u).map fun s => s.2.dropWhile (!delimiter ·)

def path (u : List Char) : Option (List Char) := (afterAuthority u).map (·.takeWhile (!endsPath ·))

def queryOf : List Char → Option (List Char)
  | '?' :: q => some (q.takeWhile (· != '#'))
  | _ => none

def query (u : List Char) : Option (List Char) :=
  (afterAuthority u).bind fun r => queryOf (r.dropWhile (!endsPath ·))

/-- Segments, each behind its slash. -/
def below : List (List Char) → List Char
  | [] => []
  | s :: segs => '/' :: s ++ below segs

/-- Text that is one segment wherever it is put. -/
def Plain (s : List Char) : Prop := ∀ c ∈ s, delimiter c = false

theorem endsPath_of_plain {c : Char} (h : delimiter c = false) : endsPath c = false := by
  unfold delimiter at h
  unfold endsPath
  cases hc : c == '?' <;> simp_all

theorem plain_of_all {s : List Char} (h : s.all (!delimiter ·) = true) : Plain s := by
  intro c hc
  simpa using List.all_eq_true.mp h c hc

theorem Plain.append {s t : List Char} (hs : Plain s) (ht : Plain t) : Plain (s ++ t) := by
  intro c hc
  rcases List.mem_append.mp hc with hc | hc
  · exact hs c hc
  · exact ht c hc

theorem below_path {segs : List (List Char)} (h : ∀ s ∈ segs, Plain s) : ∀ c ∈ below segs, endsPath c = false := by
  induction segs with
  | nil => exact fun c hc => (List.not_mem_nil hc).elim
  | cons s segs ih =>
    obtain ⟨hs, hsegs⟩ := List.forall_mem_cons.mp h
    intro c hc
    rcases List.mem_cons.mp hc with rfl | hc
    · rfl
    · rcases List.mem_append.mp hc with hc | hc
      · exact endsPath_of_plain (hs c hc)
      · exact ih hsegs c hc

/-- The segments of a path are those of its start, and then the rest. -/
theorem splitOn_below {segs : List (List Char)} (h : ∀ s ∈ segs, Plain s) (p : List Char) :
    (p ++ below segs).splitOn '/' = p.splitOn '/' ++ segs := by
  induction segs generalizing p with
  | nil => rw [below, List.append_nil, List.append_nil]
  | cons s segs ih =>
    obtain ⟨hs, hsegs⟩ := List.forall_mem_cons.mp h
    have hslash : '/' ∉ s := by
      intro hmem
      have hd := hs _ hmem
      cases hd
    have hself : s.splitOn '/' = [s] := by
      apply List.splitOnP_eq_singleton
      intro c hc
      rw [beq_eq_false_iff_ne]
      rintro rfl
      exact hslash hc
    rw [below, List.cons_append, List.splitOn_append_cons_self, ih hsegs, hself]
    rfl

/-- A URL without a query or a fragment. -/
structure Base extends Absolute where
  only_path : ∀ c ∈ path, endsPath c = false

section
variable (u : Base) {segs : List (List Char)} {tail : List Char}

/-- What may stand behind a path. -/
def Ends (tail : List Char) : Prop := ∀ c ∈ tail.head?, endsPath c = true

theorem ends_delimited (h : Ends tail) : Delimited tail := by
  intro c hc
  have := h c hc
  unfold endsPath at this
  unfold delimiter
  cases hq : c == '?' <;> simp_all

theorem delimited_below (h : Ends tail) : Delimited (below segs ++ tail) := by
  cases segs with
  | nil => exact ends_delimited h
  | cons s segs =>
    intro c hc
    cases hc
    rfl

theorem scheme_below : scheme (u.text ++ (below segs ++ tail)) = some u.scheme := scheme_append _ _

theorem authority_below (h : Ends tail) : authority (u.text ++ (below segs ++ tail)) = some u.authority :=
  (authority_append_iff _ _).mpr (.inr (delimited_below h))

theorem afterAuthority_below (h : Ends tail) :
    afterAuthority (u.text ++ (below segs ++ tail)) = some (u.path ++ (below segs ++ tail)) := by
  have hdelimited : Delimited (u.path ++ (below segs ++ tail)) := by
    rcases u.rooted with hp | hp
    · rw [hp, List.nil_append]
      exact delimited_below h
    · intro c hc
      rw [List.head?_append, hp] at hc
      cases hc
      rfl
  unfold afterAuthority Absolute.text
  rw [List.append_assoc, List.append_assoc, splitScheme_text u.no_colon, Option.map_some, List.dropWhile_append_of_pos]
  · congr 1
    cases hx : u.path ++ (below segs ++ tail) with
    | nil => rfl
    | cons c x =>
      rw [hx] at hdelimited
      rw [List.dropWhile_cons_of_neg]
      simp [hdelimited c rfl]
  · intro c hc
    rw [u.undelimited c hc]
    rfl

theorem path_chars (hs : ∀ s ∈ segs, Plain s) : ∀ c ∈ u.path ++ below segs, (!endsPath c) = true := by
  intro c hc
  rcases List.mem_append.mp hc with hc | hc
  · rw [u.only_path c hc]
    rfl
  · rw [below_path hs c hc]
    rfl

theorem path_below (hs : ∀ s ∈ segs, Plain s) (h : Ends tail) :
    path (u.text ++ (below segs ++ tail)) = some (u.path ++ below segs) := by
  unfold path
  rw [afterAuthority_below u h, Option.map_some, ← List.append_assoc, List.takeWhile_append_of_pos (path_chars u hs)]
  cases tail with
  | nil => simp
  | cons c tail =>
    rw [List.takeWhile_cons_of_neg]
    · rw [List.append_nil]
    · simp [h c rfl]

theorem query_below (hs : ∀ s ∈ segs, Plain s) (h : Ends tail) :
    query (u.text ++ (below segs ++ tail)) = queryOf tail := by
  unfold query
  rw [afterAuthority_below u h, Option.bind_some, ← List.append_assoc, List.dropWhile_append_of_pos (path_chars u hs)]
  cases tail with
  | nil => rfl
  | cons c tail =>
    rw [List.dropWhile_cons_of_neg]
    simp [h c rfl]

/-! The URL itself. -/

theorem Base.text_below : u.text = u.text ++ (below [] ++ []) := (List.append_nil _).symm

theorem Base.scheme_text : scheme u.text = some u.scheme := by
  rw [u.text_below, scheme_below]

theorem Base.authority_text : authority u.text = some u.authority := by
  rw [u.text_below, authority_below u fun c hc => by cases hc]

theorem Base.path_text : path u.text = some u.path := by
  rw [u.text_below, path_below u (fun s hs => (List.not_mem_nil hs).elim) fun c hc => by cases hc]
  exact congrArg some (List.append_nil _)

end

end Url
