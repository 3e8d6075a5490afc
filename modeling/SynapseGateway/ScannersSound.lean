import SynapseGateway.Lib.Fallible
import SynapseGateway.Lib.Assoc
import SynapseGateway.Scanners

/-!
# What a compiled scanner list promises

Every reported name keeps the action it was configured with and the position
of a spec that builds it. A spec that may mask builds one scanner, so two names
that mask never share a position (`compile_mask_order`).
-/

namespace SynapseGateway

open Assoc (lookup_cons)

variable (llm : LlmGuard)

theorem build_maskable {spec : ScannerSpec} {ss : List Scanner} (hk : spec.kind ∈ maskable)
    (h : buildScanners llm spec = .ok ss) : ∃ s, ss = [s] := by
  have hb : ∃ d, build llm spec.kind d = .ok ss := by
    cases spec with
    | named name => exact ⟨none, h⟩
    | detailed d => exact ⟨some d, h⟩
  obtain ⟨d, hb⟩ := hb
  simp only [maskable, List.mem_cons, List.not_mem_nil, or_false] at hk
  rcases hk with hk | hk | hk <;> rw [hk] at hb
  · exact ⟨_, (Except.ok.inj hb).symm⟩
  · exact ⟨_, (Except.ok.inj hb).symm⟩
  · cases d with
    | none => cases hb
    | some d =>
      simp only [build] at hb
      split at hb
      · cases hb
      · split at hb
        · obtain ⟨sev, -, hb⟩ := Fallible.of_bind_ok hb
          exact ⟨_, (Except.ok.inj hb).symm⟩
        · exact ⟨_, (Except.ok.inj hb).symm⟩

structure Compiling.Inv (all : List ScannerSpec) (c : Compiling) : Prop where
  order : ∀ n i, c.out.order.lookup n = some i → ∃ spec ss, all[i]? = some spec ∧
    buildScanners llm spec = .ok ss ∧ n ∈ ss.map (·.name) ∧ c.configured.lookup n = some spec.action
  actions : ∀ n a, c.out.actions.lookup n = some a → c.configured.lookup n = some (some a)
  configured : ∀ n a, c.configured.lookup n = some a → ∃ i, c.out.order.lookup n = some i

/-- A scanner that is added keeps an earlier position of its name and agrees with an earlier action. -/
theorem addScanner_ok {policy : String} {i : Nat} {action : Option Action} {s : Scanner} {c c' : Compiling}
    (h : addScanner policy i action c s = .ok c') :
    (∀ a, c.configured.lookup s.name = some a → a = action) ∧ ∀ n,
      c'.configured.lookup n = (if n = s.name then some action else c.configured.lookup n) ∧
      c'.out.actions.lookup n = (if n = s.name then action.or (c.out.actions.lookup n) else c.out.actions.lookup n) ∧
      c'.out.order.lookup n = if n = s.name then (c.out.order.lookup n).or (some i) else c.out.order.lookup n := by
  unfold addScanner at h
  by_cases hany : (c.configured.lookup s.name).any (· != action) = true
  · rw [if_pos hany] at h
    cases h
  · rw [if_neg hany] at h
    cases h
    refine ⟨fun a ha => ?_, fun n => ⟨lookup_cons .., ?_, ?_⟩⟩
    · rw [ha] at hany
      simpa using hany
    · cases action with
      | none => simp
      | some a => simp [lookup_cons]
    · by_cases hn : n = s.name
      · subst hn
        cases ho : c.out.order.lookup s.name with
        | none => simp
        | some k => simp [ho]
      · cases ho : c.out.order.lookup s.name with
        | none => simp [lookup_cons, hn]
        | some k => simp [hn]

theorem addScanner_inv {all : List ScannerSpec} {policy : String} {i : Nat} {spec : ScannerSpec}
    {ss : List Scanner} {s : Scanner} {c c' : Compiling} (hi : c.Inv llm all) (hall : all[i]? = some spec)
    (hss : buildScanners llm spec = .ok ss) (hs : s ∈ ss) (h : addScanner policy i spec.action c s = .ok c') :
    c'.Inv llm all := by
  obtain ⟨hprev, hadded⟩ := addScanner_ok h
  constructor
  · intro n j hj
    obtain ⟨hconfigured, -, horder⟩ := hadded n
    rw [horder] at hj
    rw [hconfigured]
    by_cases hn : n = s.name
    · subst hn
      rw [if_pos rfl] at hj ⊢
      cases ho : c.out.order.lookup s.name with
      | none =>
        rw [ho] at hj
        cases hj
        exact ⟨spec, ss, hall, hss, List.mem_map_of_mem hs, rfl⟩
      | some k =>
        rw [ho] at hj
        cases hj
        obtain ⟨spec', ss', hall', hss', hmem, haction⟩ := hi.order _ _ ho
        exact ⟨spec', ss', hall', hss', hmem, by rw [hprev _ haction]⟩
    · rw [if_neg hn] at hj ⊢
      exact hi.order n j hj
  · intro n a ha
    obtain ⟨hconfigured, hactions, -⟩ := hadded n
    rw [hactions] at ha
    rw [hconfigured]
    by_cases hn : n = s.name
    · subst hn
      rw [if_pos rfl] at ha ⊢
      rcases Option.or_eq_some_iff.mp ha with hnew | ⟨-, hold⟩
      · rw [hnew]
      · rw [hprev _ (hi.actions _ _ hold)]
    · rw [if_neg hn] at ha ⊢
      exact hi.actions n a ha
  · intro n a ha
    obtain ⟨hconfigured, -, horder⟩ := hadded n
    rw [hconfigured] at ha
    rw [horder]
    by_cases hn : n = s.name
    · subst hn
      rw [if_pos rfl]
      cases c.out.order.lookup s.name with
      | none => exact ⟨i, rfl⟩
      | some k => exact ⟨k, rfl⟩
    · rw [if_neg hn] at ha ⊢
      exact hi.configured n a ha

theorem addScanners_inv {all : List ScannerSpec} {policy : String} {i : Nat} {spec : ScannerSpec}
    {ss : List Scanner} (hall : all[i]? = some spec) (hss : buildScanners llm spec = .ok ss) {l : List Scanner}
    {c c' : Compiling} (hl : l ⊆ ss) (hi : c.Inv llm all) (h : l.foldlM (addScanner policy i spec.action) c = .ok c') :
    c'.Inv llm all := by
  induction l generalizing c with
  | nil => cases h; exact hi
  | cons s l ih =>
    obtain ⟨hs, hl⟩ := List.cons_subset.mp hl
    rw [List.foldlM_cons] at h
    obtain ⟨d, hadd, h⟩ := Fallible.of_bind_ok h
    exact ih hl (addScanner_inv llm hi hall hss hs hadd) h

theorem compileFrom_inv {policy : String} {specs done : List ScannerSpec} {c c' : Compiling}
    (hi : c.Inv llm (done ++ specs)) (h : compileFrom llm policy done.length specs c = .ok c') :
    c'.Inv llm (done ++ specs) := by
  induction specs generalizing done c with
  | nil => cases h; exact hi
  | cons spec specs ih =>
    rw [compileFrom] at h
    obtain ⟨ss, hss, h⟩ := Fallible.of_bind_ok h
    obtain ⟨d, hadd, h⟩ := Fallible.of_bind_ok h
    have hi' := addScanners_inv llm (by simp) hss (List.Subset.refl _) hi hadd
    rw [List.append_cons] at hi' ⊢
    exact ih hi' (by rwa [List.length_append])

/-- Two names that mask and have one position are one name. -/
theorem compile_mask_order {policy key : String} {specs : List ScannerSpec} {c : CompiledScanners}
    (h : CompiledScanners.compile llm policy specs = .ok c) (hm : checkMasks policy key specs = .ok ()) {n n' : String}
    (hn : c.actions.lookup n = some .mask) (hn' : c.actions.lookup n' = some .mask)
    (ho : (c.order.lookup n).getD (2 ^ 64 - 1) = (c.order.lookup n').getD (2 ^ 64 - 1)) : n = n' := by
  obtain ⟨d, hc, rfl⟩ := Fallible.of_map_ok h
  have hi : d.Inv llm ([] ++ specs) := compileFrom_inv llm
    ⟨(fun _ _ h => by cases h), (fun _ _ h => by cases h), fun _ _ h => by cases h⟩ hc
  have hpos : ∀ m, d.out.actions.lookup m = some .mask → ∃ i spec s, d.out.order.lookup m = some i ∧
      specs[i]? = some spec ∧ buildScanners llm spec = .ok [s] ∧ m = s.name := by
    intro m hma
    have hcfg := hi.actions _ _ hma
    obtain ⟨i, hoi⟩ := hi.configured _ _ hcfg
    obtain ⟨spec, ss, h1, h2, h3, h4⟩ := hi.order _ _ hoi
    have hact : spec.action = some .mask := Option.some.inj (h4.symm.trans hcfg)
    obtain ⟨s, rfl⟩ := build_maskable llm (checkMasks_ok hm (List.mem_of_getElem? h1) hact) h2
    exact ⟨i, spec, s, hoi, h1, h2, by simpa using h3⟩
  obtain ⟨i, spec, s, h1, h2, h3, rfl⟩ := hpos n hn
  obtain ⟨i', spec', s', h1', h2', h3', rfl⟩ := hpos n' hn'
  rw [h1, h1'] at ho
  obtain rfl : i = i' := ho
  rw [h2] at h2'
  cases h2'
  rw [h3] at h3'
  cases h3'
  rfl

end SynapseGateway
