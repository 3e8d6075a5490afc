import Mathlib.Data.List.AList
import Mathlib.Data.String.Basic
import SynapseGateway.Lib.Fallible
import SynapseGateway.Ledger

/-!
# Task types of aliases

The file lists the aliases of each task type. It is turned around when it is
loaded, in the order of a hash map: what comes of it must not depend on that order.
-/

namespace SynapseGateway

def DEFAULT_AI_TASK_TYPE : String := "simple"

/-- The entries of a parsed file, in some order. -/
structure AiTaskTypesFile where
  tasks : List (String × List String)
  nodup : (tasks.map (·.1)).Nodup

structure AiTaskTypeTable where
  byAlias : AList fun _ : String => String := ∅

def AiTaskTypesFile.pairs (file : AiTaskTypesFile) : List (String × String) :=
  file.tasks.flatMap fun e => e.2.map fun name => (name, e.1)

def ambiguousTaskTypes (name a b : String) : String :=
  "route alias '" ++ name ++ "' is mapped to more than one ai task type ('" ++ a ++ "' and '" ++ b ++ "')"

def claimAlias (acc : AList fun _ : String => String) (p : String × String) :
    Except String (AList fun _ : String => String) :=
  match acc.lookup p.1 with
  | none => .ok (acc.insert p.1 p.2)
  | some prev =>
    -- sorted, so the message does not depend on the order of the map
    if prev ≠ p.2 then .error (ambiguousTaskTypes p.1 (min prev p.2) (max prev p.2)) else .ok (acc.insert p.1 p.2)

def AiTaskTypeTable.fromFile (file : AiTaskTypesFile) : Except String AiTaskTypeTable :=
  (file.pairs.foldlM claimAlias ∅).map fun byAlias => ⟨byAlias⟩

def AiTaskTypeTable.resolve (t : AiTaskTypeTable) (name : String) : String :=
  (t.byAlias.lookup name).getD DEFAULT_AI_TASK_TYPE

/-! ## Loading -/

/-- The file gives the alias this task type. -/
def AiTaskTypesFile.Claims (file : AiTaskTypesFile) (name task : String) : Prop :=
  ∃ aliases, (task, aliases) ∈ file.tasks ∧ name ∈ aliases

theorem mem_pairs {file : AiTaskTypesFile} {name task : String} : (name, task) ∈ file.pairs ↔ file.Claims name task := by
  unfold AiTaskTypesFile.pairs AiTaskTypesFile.Claims
  simp only [List.mem_flatMap, List.mem_map, Prod.mk.injEq]
  constructor
  · rintro ⟨⟨task, aliases⟩, he, name, hname, rfl, rfl⟩
    exact ⟨aliases, he, hname⟩
  · rintro ⟨aliases, he, hname⟩
    exact ⟨(task, aliases), he, name, hname, rfl, rfl⟩

section
variable {acc next : AList fun _ : String => String} {p : String × String}

/-- A claim that is accepted adds its pair and takes none away. -/
theorem lookup_of_claim (h : claimAlias acc p = .ok next) (name task : String) :
    next.lookup name = some task ↔ acc.lookup name = some task ∨ (name, task) = p := by
  have hnext : next = acc.insert p.1 p.2 ∧ (acc.lookup p.1 = none ∨ acc.lookup p.1 = some p.2) := by
    unfold claimAlias at h
    split at h
    · rename_i hnone
      exact ⟨(Except.ok.inj h).symm, .inl hnone⟩
    · rename_i prev hprev
      split at h
      · cases h
      · rename_i hsame
        exact ⟨(Except.ok.inj h).symm, .inr (not_not.mp hsame ▸ hprev)⟩
  obtain ⟨rfl, hprev⟩ := hnext
  by_cases hname : name = p.1
  · subst hname
    rw [AList.lookup_insert, Prod.ext_iff]
    rcases hprev with hprev | hprev <;> simp [hprev, eq_comm]
  · rw [AList.lookup_insert_ne hname]
    simp [Prod.ext_iff, hname]

theorem error_of_claim {e : String} (h : claimAlias acc p = .error e) :
    ∃ prev, acc.lookup p.1 = some prev ∧ prev ≠ p.2 ∧ e = ambiguousTaskTypes p.1 (min prev p.2) (max prev p.2) := by
  unfold claimAlias at h
  split at h
  · cases h
  · rename_i prev hprev
    split at h
    · rename_i hne
      exact ⟨prev, hprev, hne, (Except.error.inj h).symm⟩
    · cases h

/-- An alias has two task types, and the error names them. -/
def Ambiguous (taken : String → String → Prop) (e : String) : Prop :=
  ∃ name a b, a < b ∧ taken name a ∧ taken name b ∧ e = ambiguousTaskTypes name a b

theorem ambiguous_of_ne {taken : String → String → Prop} {name a b : String} (ha : taken name a) (hb : taken name b)
    (hne : a ≠ b) : Ambiguous taken (ambiguousTaskTypes name (min a b) (max a b)) := by
  refine ⟨name, min a b, max a b, min_lt_max.mpr hne, ?_, ?_, rfl⟩
  · rcases min_choice a b with h | h <;> rw [h] <;> assumption
  · rcases max_choice a b with h | h <;> rw [h] <;> assumption

theorem claims_taken (ps : List (String × String)) (acc : AList fun _ : String => String) :
    match ps.foldlM claimAlias acc with
    | .ok t => ∀ name task, t.lookup name = some task ↔ acc.lookup name = some task ∨ (name, task) ∈ ps
    | .error e => Ambiguous (fun name task => acc.lookup name = some task ∨ (name, task) ∈ ps) e := by
  induction ps generalizing acc with
  | nil =>
    intro name task
    simp
  | cons p ps ih =>
    rw [List.foldlM_cons]
    cases hp : claimAlias acc p with
    | error e =>
      obtain ⟨prev, hprev, hne, rfl⟩ := error_of_claim hp
      exact ambiguous_of_ne (.inl hprev) (.inr List.mem_cons_self) hne
    | ok next =>
      have hmem : ∀ name task, (next.lookup name = some task ∨ (name, task) ∈ ps) ↔
          acc.lookup name = some task ∨ (name, task) ∈ p :: ps := by
        intro name task
        rw [lookup_of_claim hp, List.mem_cons, or_assoc]
      have ih := ih next
      simp only [hmem] at ih
      exact ih

end

/-- A file is refused exactly when it gives an alias two task types, whatever the order
of its entries, and then the error names such an alias; otherwise every alias resolves
to its task type, and to the default one where the file gives none. -/
theorem task_types_resolve (file : AiTaskTypesFile) :
    match AiTaskTypeTable.fromFile file with
    | .ok t => ∀ name, (∀ task, file.Claims name task → t.resolve name = task) ∧
        ((∀ task, ¬ file.Claims name task) → t.resolve name = DEFAULT_AI_TASK_TYPE)
    | .error e => Ambiguous file.Claims e := by
  have htaken := claims_taken file.pairs ∅
  unfold AiTaskTypeTable.fromFile
  cases hfold : file.pairs.foldlM claimAlias ∅ with
  | error e =>
    rw [hfold] at htaken
    simp only [AList.lookup_empty, reduceCtorEq, false_or, mem_pairs] at htaken
    exact htaken
  | ok byAlias =>
    rw [hfold] at htaken
    simp only [AList.lookup_empty, reduceCtorEq, false_or, mem_pairs] at htaken
    intro name
    constructor
    · intro task htask
      show (byAlias.lookup name).getD _ = task
      rw [(htaken name task).mpr htask]
      rfl
    · intro hnone
      have hlookup : byAlias.lookup name = none := by
        by_contra hne
        obtain ⟨task, htask⟩ := Option.ne_none_iff_exists'.mp hne
        exact hnone task ((htaken name task).mp htask)
      show (byAlias.lookup name).getD _ = _
      rw [hlookup]
      rfl

end SynapseGateway
