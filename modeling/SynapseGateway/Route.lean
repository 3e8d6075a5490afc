/-!
# Legs and tiers of a route
-/

namespace SynapseGateway

inductive Effort where
  | none | minimal | low | medium | high | xhigh | max
deriving DecidableEq, Repr

def Effort.asStr : Effort → String
  | .none => "none"
  | .minimal => "minimal"
  | .low => "low"
  | .medium => "medium"
  | .high => "high"
  | .xhigh => "xhigh"
  | .max => "max"

def Effort.bump : Effort → Effort
  | .none => .minimal
  | .minimal => .low
  | .low => .medium
  | .medium => .high
  | .high => .xhigh
  | .xhigh | .max => .max

structure ChainLeg where
  provider : String
  model : String
  region : Option String := none
  effort : Option Effort := none
deriving DecidableEq, Repr

def ChainLeg.modelKey (l : ChainLeg) : String × String := (l.provider, l.model)

inductive EffortPolicy where
  | tier (bump : Bool)
  | client
deriving DecidableEq, Repr

/-- Tier indices in fallback order: `start`, each harder tier, then each easier
tier. `start` is clamped into range. -/
def escalationOrder (len start : Nat) : List Nat :=
  let start := min start (len - 1)
  List.range' start (len - start) ++ (List.range start).reverse

theorem mem_escalationOrder {len start i : Nat} : i ∈ escalationOrder len start ↔ i < len := by
  unfold escalationOrder
  simp only [List.mem_append, List.mem_range'_1, List.mem_reverse, List.mem_range]
  omega

theorem escalationOrder_head {len start : Nat} (h : start < len) :
    escalationOrder len start =
      start :: (List.range' (start + 1) (len - start - 1) ++ (List.range start).reverse) := by
  have hclamp : min start (len - 1) = start := by omega
  obtain ⟨n, hn⟩ : ∃ n, len - start = n + 1 := ⟨len - start - 1, by omega⟩
  simp only [escalationOrder, hclamp]
  rw [hn, List.range'_succ]
  rfl

/-- Tiers from `start` on come in order, then those below it, the hardest first. -/
def TierBefore (start i j : Nat) : Prop := start ≤ i ∧ (i < j ∨ j < start) ∨ i < start ∧ j < i

theorem escalationOrder_pairwise (len start : Nat) :
    (escalationOrder len start).Pairwise (TierBefore (min start (len - 1))) := by
  unfold escalationOrder
  generalize min start (len - 1) = s
  simp only
  rw [List.pairwise_append]
  refine ⟨?_, ?_, ?_⟩
  · apply (List.pairwise_lt_range' ..).imp_of_mem
    intro i j hi _ hij
    rw [List.mem_range'_1] at hi
    exact .inl ⟨hi.1, .inl hij⟩
  · rw [List.pairwise_reverse]
    apply List.pairwise_lt_range.imp_of_mem
    intro i j _ hj hij
    exact .inr ⟨List.mem_range.mp hj, hij⟩
  · intro i hi j hj
    rw [List.mem_range'_1] at hi
    rw [List.mem_reverse, List.mem_range] at hj
    exact .inl ⟨hi.1, .inr hj⟩

theorem escalationOrder_nodup (len start : Nat) : (escalationOrder len start).Nodup := by
  apply (escalationOrder_pairwise len start).imp
  rintro i j hij rfl
  unfold TierBefore at hij
  omega

end SynapseGateway
