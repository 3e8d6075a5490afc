import Mathlib.Data.List.Perm.Subperm
import SynapseGateway.Embeddings
import SynapseGateway.Lib.Assoc
import SynapseGateway.Lib.Fallible
import SynapseGateway.StreamAgree

/-!
# Which input a vector belongs to

An answer is not compared with the batch it answers: the vectors of a request
are aligned with its inputs exactly when every answer of the serving leg has one
vector of the right length for each input.
-/

namespace SynapseGateway

open Utf8 (Text)

variable {F : Type}

def Embedder.Responds (e : Embedder F) (leg batch : Nat) (model : String) (inputs : List Text) (dims : Nat) : Prop :=
  match e with
  | .vertex ask => ∃ r, ask leg batch model inputs dims = .response r
  | .openai ask => ∃ r, ask leg batch model inputs dims = .response r

/-- `v` is what the provider's answer gives for input `j` of the batch: by position at
Vertex, by index at OpenAI. -/
def Embedder.Gives (e : Embedder F) (leg batch : Nat) (model : String) (inputs : List Text) (dims j : Nat)
    (v : List F) : Prop :=
  match e with
  | .vertex ask => ∃ r, ask leg batch model inputs dims = .response r ∧ ∃ p, r.predictions[j]? = some p ∧ p.values = v
  | .openai ask => ∃ r, ask leg batch model inputs dims = .response r ∧ ∃ d ∈ r.data, d.index = j ∧ d.embedding = v

/-- The answer has one vector for each input of the batch, each of length `dims`. -/
def Embedder.Fits (e : Embedder F) (leg batch : Nat) (model : String) (inputs : List Text) (dims : Nat) : Prop :=
  match e with
  | .vertex ask => ∀ r, ask leg batch model inputs dims = .response r →
      r.predictions.length = inputs.length ∧ ∀ p ∈ r.predictions, p.values.length = dims
  | .openai ask => ∀ r, ask leg batch model inputs dims = .response r →
      r.data.length = inputs.length ∧ (∀ j < inputs.length, ∃ d ∈ r.data, d.index = j) ∧
        ∀ d ∈ r.data, d.embedding.length = dims

/-! ## One batch -/

section
variable {e : Embedder F} {leg batch : Nat} {model : String} {inputs : List Text} {dims : Nat}

theorem EmbedReply.read_ok {R : Type} {label : String} {reply : EmbedReply R} {r : R} :
    reply.read label = .ok r ↔ reply = .response r := by
  cases reply <;> simp [EmbedReply.read]

theorem EmbedReply.read_map_ok {R : Type} {label : String} {reply : EmbedReply R} {parse : R → EmbedOut F} :
    (∃ out, (reply.read label).map parse = .ok out) ↔ ∃ r, reply = .response r := by
  constructor
  · intro h
    obtain ⟨out, h⟩ := h
    obtain ⟨r, hr, -⟩ := Fallible.of_map_ok h
    exact ⟨r, EmbedReply.read_ok.mp hr⟩
  · intro h
    obtain ⟨r, rfl⟩ := h
    exact ⟨parse r, rfl⟩

theorem embed_ok_iff : (∃ out, e.embed leg batch model inputs dims = .ok out) ↔ e.Responds leg batch model inputs dims := by
  cases e with
  | vertex ask => exact EmbedReply.read_map_ok
  | openai ask => exact EmbedReply.read_map_ok

theorem sorted_index {data : List (RespDatum F)} {n : Nat} (hlen : data.length = n)
    (hall : ∀ j < n, ∃ d ∈ data, d.index = j) : (data.insertionSort RespDatum.le).map (·.index) = List.range n := by
  have hsub : List.range n ⊆ data.map (·.index) := by
    intro j hj
    obtain ⟨d, hd, rfl⟩ := hall j (List.mem_range.mp hj)
    exact List.mem_map_of_mem hd
  have hperm : (List.range n).Perm (data.map (·.index)) := by
    refine (List.subperm_of_subset List.nodup_range hsub).perm_of_length_le ?_
    rw [List.length_map, List.length_range, hlen]
  rw [List.map_insertionSort RespDatum.le (· ≤ ·) _ _ fun a _ b _ => Iff.rfl]
  refine List.Perm.eq_of_pairwise' (r := (· ≤ ·)) (List.pairwise_insertionSort _ _) ?_
    ((List.perm_insertionSort _ _).trans hperm.symm)
  exact List.pairwise_le_range

theorem Embedder.Fits.gives (h : e.Fits leg batch model inputs dims) {out : EmbedOut F}
    (ho : e.embed leg batch model inputs dims = .ok out) : out.vectors.length = inputs.length ∧
      ∀ j v, out.vectors[j]? = some v → e.Gives leg batch model inputs dims j v ∧ v.length = dims := by
  cases e with
  | vertex ask =>
    obtain ⟨r, hr, rfl⟩ := Fallible.of_map_ok ho
    rw [EmbedReply.read_ok] at hr
    obtain ⟨hlen, hdims⟩ := h r hr
    refine ⟨by simpa [parsePredictResponse] using hlen, ?_⟩
    intro j v hv
    simp only [parsePredictResponse, List.getElem?_map, Option.map_eq_some_iff] at hv
    obtain ⟨p, hp, rfl⟩ := hv
    exact ⟨⟨r, hr, p, hp, rfl⟩, hdims p (List.mem_of_getElem? hp)⟩
  | openai ask =>
    obtain ⟨r, hr, rfl⟩ := Fallible.of_map_ok ho
    rw [EmbedReply.read_ok] at hr
    obtain ⟨hlen, hall, hdims⟩ := h r hr
    refine ⟨by simpa [parseOpenaiResponse] using hlen, ?_⟩
    intro j v hv
    simp only [parseOpenaiResponse, List.getElem?_map, Option.map_eq_some_iff] at hv
    obtain ⟨d, hd, rfl⟩ := hv
    have hmem : d ∈ r.data := (List.mem_insertionSort _).mp (List.mem_of_getElem? hd)
    have hindex : (List.range inputs.length)[j]? = some d.index := by
      rw [← sorted_index hlen hall, List.getElem?_map, hd]
      rfl
    have hj : j = d.index := by
      obtain ⟨hlt, hget⟩ := List.getElem?_eq_some_iff.mp hindex
      rw [List.getElem_range] at hget
      exact hget
    exact ⟨⟨r, hr, d, hmem, hj.symm, rfl⟩, hdims d hmem⟩

theorem length_le_of_gives {out : EmbedOut F} (ho : e.embed leg batch model inputs dims = .ok out)
    (h : ∀ j < inputs.length, ∃ v, e.Gives leg batch model inputs dims j v) :
    inputs.length ≤ out.vectors.length := by
  cases e with
  | vertex ask =>
    obtain ⟨r, hr, rfl⟩ := Fallible.of_map_ok ho
    rw [EmbedReply.read_ok] at hr
    by_contra hlt
    have hlt : r.predictions.length < inputs.length := by simpa [parsePredictResponse] using hlt
    obtain ⟨v, r', hr', p, hp, -⟩ := h _ hlt
    rw [hr] at hr'
    cases hr'
    simp at hp
  | openai ask =>
    obtain ⟨r, hr, rfl⟩ := Fallible.of_map_ok ho
    rw [EmbedReply.read_ok] at hr
    have hsub : List.range inputs.length ⊆ r.data.map (·.index) := by
      intro j hj
      obtain ⟨v, r', hr', d, hd, rfl, -⟩ := h j (List.mem_range.mp hj)
      rw [hr] at hr'
      cases hr'
      exact List.mem_map_of_mem hd
    have := (List.subperm_of_subset List.nodup_range hsub).length_le
    simpa [parseOpenaiResponse] using this

theorem fits_of_gives {out : EmbedOut F} (ho : e.embed leg batch model inputs dims = .ok out)
    (h : ∀ j < inputs.length, ∃ v, e.Gives leg batch model inputs dims j v)
    (hlen : out.vectors.length = inputs.length) (hdims : ∀ v ∈ out.vectors, v.length = dims) :
    e.Fits leg batch model inputs dims := by
  cases e with
  | vertex ask =>
    obtain ⟨r, hr, rfl⟩ := Fallible.of_map_ok ho
    rw [EmbedReply.read_ok] at hr
    intro r' hr'
    rw [hr] at hr'
    cases hr'
    refine ⟨by simpa [parsePredictResponse] using hlen, ?_⟩
    intro p hp
    exact hdims _ (List.mem_map_of_mem hp)
  | openai ask =>
    obtain ⟨r, hr, rfl⟩ := Fallible.of_map_ok ho
    rw [EmbedReply.read_ok] at hr
    intro r' hr'
    rw [hr] at hr'
    cases hr'
    refine ⟨by simpa [parseOpenaiResponse] using hlen, ?_, ?_⟩
    · intro j hj
      obtain ⟨v, r', hr', d, hd, hindex, -⟩ := h j hj
      rw [hr] at hr'
      cases hr'
      exact ⟨d, hd, hindex⟩
    · intro d hd
      exact hdims _ (List.mem_map_of_mem ((List.mem_insertionSort _).mpr hd))

end

/-! ## All batches -/

section
variable {e : Embedder F} {leg : Nat} {model : String} {dims : Nat}

def Embedder.Outs (e : Embedder F) (leg : Nat) (model : String) (dims : Nat) :
    List (List Text × Nat) → List (EmbedOut F) → Prop :=
  List.Forall₂ fun b out => e.embed leg b.2 model b.1 dims = .ok out

theorem batchesLane_cons (e : Embedder F) (number : Nat) (leg : ChainLeg) (dims batch : Nat) (inputs : List Text)
    (rest : List (List Text)) : (e.batchesLane number leg dims batch (inputs :: rest)).result =
      (e.embed number batch leg.model inputs dims >>= fun out =>
        (e.batchesLane number leg dims (batch + 1) rest).result.map fun outs =>
          ⟨out.vectors ++ outs.vectors, (out.inputTokens + outs.inputTokens) % 2 ^ 64⟩) := by
  rw [Embedder.batchesLane, Trace.emit_bind]
  cases e.embed number batch leg.model inputs dims with
  | error err => rfl
  | ok out =>
    rw [Trace.lift_bind_ok, Trace.bind_pure]
    rfl

theorem batchesLane_ok {number : Nat} {leg : ChainLeg} {batches : List (List Text)} {n : Nat} {out : EmbedOut F}
    (h : (e.batchesLane number leg dims n batches).result = .ok out) :
    ∃ outs, e.Outs number leg.model dims (batches.zipIdx n) outs ∧ out.vectors = (outs.map (·.vectors)).flatten := by
  induction batches generalizing n out with
  | nil =>
    cases h
    exact ⟨[], .nil, rfl⟩
  | cons inputs batches ih =>
    rw [batchesLane_cons] at h
    obtain ⟨o, ho, h⟩ := Fallible.of_bind_ok h
    obtain ⟨rest, hrest, rfl⟩ := Fallible.of_map_ok h
    obtain ⟨outs, houts, hvectors⟩ := ih hrest
    refine ⟨o :: outs, ?_, ?_⟩
    · rw [List.zipIdx_cons]
      exact .cons ho houts
    · rw [List.map_cons, List.flatten_cons, ← hvectors]

theorem batchesLane_responds {number : Nat} {leg : ChainLeg} {batches : List (List Text)} {n : Nat}
    (h : ∀ b ∈ batches.zipIdx n, e.Responds number b.2 leg.model b.1 dims) :
    ∃ out, (e.batchesLane number leg dims n batches).result = .ok out := by
  induction batches generalizing n with
  | nil => exact ⟨_, rfl⟩
  | cons inputs batches ih =>
    rw [List.zipIdx_cons, List.forall_mem_cons] at h
    obtain ⟨o, ho⟩ := embed_ok_iff.mpr h.1
    obtain ⟨rest, hrest⟩ := ih h.2
    rw [batchesLane_cons, ho, hrest]
    exact ⟨_, rfl⟩

theorem Embedder.Outs.responds {batches : List (List Text × Nat)} {outs : List (EmbedOut F)}
    (h : e.Outs leg model dims batches outs) : ∀ b ∈ batches, e.Responds leg b.2 model b.1 dims := by
  intro b hb
  obtain ⟨i, hi⟩ := List.mem_iff_getElem?.mp hb
  obtain ⟨out, -, hout⟩ := Chunks.forall₂_getElem? h hi
  exact embed_ok_iff.mp ⟨out, hout⟩

def numberedBatches (inputs : List Text) (limit : ℕ+) : List (List Text × Nat) := (splitBatches inputs limit).zipIdx

/-- Vector `i` of the response has the alias's length and is what the provider gave for
input `i`, in that input's batch. -/
structure Embedder.Aligned (e : Embedder F) (leg : Nat) (model : String) (dims : Nat) (limit : ℕ+) (inputs : List Text)
    (resp : EmbeddingResponse F) : Prop where
  length : resp.data.length = inputs.length
  vector : ∀ i d, resp.data[i]? = some d → d.index = i ∧ d.embedding.length = dims ∧
    ∃ batch, (splitBatches inputs limit)[i / (limit : ℕ)]? = some batch ∧ batch[i % (limit : ℕ)]? = inputs[i]? ∧
      e.Gives leg (i / (limit : ℕ)) model batch dims (i % (limit : ℕ)) d.embedding

theorem buildResponse_getElem? (model : String) (out : EmbedOut F) (i : Nat) :
    (buildResponse model out).data[i]? = out.vectors[i]?.map fun v => ⟨"embedding", i, v⟩ := by
  unfold buildResponse
  rw [List.getElem?_map, List.getElem?_zipIdx]
  cases out.vectors[i]? with
  | none => rfl
  | some v => simp

theorem splitBatches_getElem? (inputs : List Text) (limit : ℕ+) (i : Nat) :
    inputs[i]? = (splitBatches inputs limit)[i / (limit : ℕ)]?.bind fun batch => batch[i % (limit : ℕ)]? := by
  have hsame : List.Forall₂ (fun c out : List Text => out.length = c.length) (Chunks.chunks limit inputs)
      (Chunks.chunks limit inputs) := List.forall₂_same.mpr fun _ _ => rfl
  have h := Chunks.getElem?_flatten hsame i
  rwa [Chunks.flatten_chunks] at h

section
variable {limit : ℕ+} {inputs : List Text} {outs : List (EmbedOut F)}

theorem Embedder.Outs.batches (h : e.Outs leg model dims (numberedBatches inputs limit) outs)
    {R : List Text → List (List F) → Prop}
    (hR : ∀ b ∈ numberedBatches inputs limit, ∀ out, e.embed leg b.2 model b.1 dims = .ok out → R b.1 out.vectors) :
    List.Forall₂ R (splitBatches inputs limit) (outs.map (·.vectors)) := by
  have hfst : (numberedBatches inputs limit).map (·.1) = splitBatches inputs limit := List.zipIdx_map_fst ..
  rw [← hfst, List.forall₂_map_left_iff, List.forall₂_map_right_iff]
  rw [List.forall₂_iff_zip]
  unfold Embedder.Outs at h
  rw [List.forall₂_iff_zip] at h
  refine ⟨h.1, ?_⟩
  intro b out hmem
  exact hR b (List.of_mem_zip hmem).1 out (h.2 hmem)

theorem Embedder.Outs.getElem? (h : e.Outs leg model dims (numberedBatches inputs limit) outs) {b : Nat}
    {vs : List (List F)} (hvs : (outs.map (·.vectors))[b]? = some vs) :
    ∃ batch out, (splitBatches inputs limit)[b]? = some batch ∧ (batch, b) ∈ numberedBatches inputs limit ∧
      e.embed leg b model batch dims = .ok out ∧ out.vectors = vs := by
  rw [List.getElem?_map, Option.map_eq_some_iff] at hvs
  obtain ⟨out, hout, rfl⟩ := hvs
  obtain ⟨⟨batch, b'⟩, hb, ho⟩ := Chunks.getElem?_forall₂ h hout
  have hmem := List.mem_of_getElem? hb
  unfold numberedBatches at hb
  rw [List.getElem?_zipIdx, Option.map_eq_some_iff] at hb
  obtain ⟨batch', hbatch, heq⟩ := hb
  simp only [Nat.zero_add, Prod.mk.injEq] at heq
  obtain ⟨rfl, rfl⟩ := heq
  exact ⟨_, out, hbatch, hmem, ho, rfl⟩

theorem aligned_of_fits (h : e.Outs leg model dims (numberedBatches inputs limit) outs) (routeAlias : String)
    {out : EmbedOut F} (hout : out.vectors = (outs.map (·.vectors)).flatten)
    (hfits : ∀ b ∈ numberedBatches inputs limit, e.Fits leg b.2 model b.1 dims) :
    e.Aligned leg model dims limit inputs (buildResponse routeAlias out) := by
  have hsizes := h.batches (R := fun c vs => vs.length = c.length) fun b hb o ho => ((hfits b hb).gives ho).1
  have hflat := Chunks.getElem?_flatten (n := limit) hsizes
  constructor
  · have hlen := Chunks.flatten_length_eq hsizes
    unfold splitBatches at hlen
    rw [Chunks.flatten_chunks] at hlen
    simpa [buildResponse, hout] using hlen
  · intro i d hd
    rw [buildResponse_getElem?, Option.map_eq_some_iff] at hd
    obtain ⟨v, hv, rfl⟩ := hd
    rw [hout, hflat i, Option.bind_eq_some_iff] at hv
    obtain ⟨vs, hvs, hv⟩ := hv
    obtain ⟨batch, o, hbatch, hmem, ho, rfl⟩ := h.getElem? hvs
    obtain ⟨hgives, hdims⟩ := ((hfits _ hmem).gives ho).2 _ v hv
    refine ⟨rfl, hdims, batch, hbatch, ?_, hgives⟩
    rw [splitBatches_getElem? inputs limit i, hbatch]
    rfl

/-- Every place of a batch is the place of an input, so the answer gives something for it. -/
theorem gives_of_aligned {resp : EmbeddingResponse F} (ha : e.Aligned leg model dims limit inputs resp)
    {b : List Text × Nat} (hb : b ∈ numberedBatches inputs limit) {j : Nat} (hj : j < b.1.length) :
    ∃ v, e.Gives leg b.2 model b.1 dims j v := by
  obtain ⟨batch, b⟩ := b
  unfold numberedBatches at hb
  rw [List.mem_zipIdx_iff_getElem?] at hb
  simp only at hb hj ⊢
  have hjn : j < (limit : ℕ) := Nat.lt_of_lt_of_le hj (Chunks.length_of_mem_chunks (List.mem_of_getElem? hb))
  have hdiv : (b * (limit : ℕ) + j) / (limit : ℕ) = b := by
    rw [Nat.add_comm, Nat.add_mul_div_right _ _ limit.pos, Nat.div_eq_of_lt hjn, Nat.zero_add]
  have hmod : (b * (limit : ℕ) + j) % (limit : ℕ) = j := by
    rw [Nat.add_comm, Nat.add_mul_mod_self_right, Nat.mod_eq_of_lt hjn]
  have hi : (inputs[b * (limit : ℕ) + j]?).isSome = true := by
    rw [splitBatches_getElem? inputs limit, hdiv, hmod, hb, Option.bind_some]
    simpa using hj
  have hlt : b * (limit : ℕ) + j < resp.data.length := by
    rw [ha.length]
    simpa using hi
  obtain ⟨-, -, batch', hbatch', -, hg⟩ := ha.vector (b * (limit : ℕ) + j) _ (List.getElem?_eq_getElem hlt)
  rw [hdiv, hb] at hbatch'
  cases hbatch'
  rw [hdiv, hmod] at hg
  exact ⟨_, hg⟩

theorem fits_of_aligned (h : e.Outs leg model dims (numberedBatches inputs limit) outs) {routeAlias : String}
    {out : EmbedOut F} (hout : out.vectors = (outs.map (·.vectors)).flatten)
    (ha : e.Aligned leg model dims limit inputs (buildResponse routeAlias out)) :
    ∀ b ∈ numberedBatches inputs limit, e.Fits leg b.2 model b.1 dims := by
  have hlen : out.vectors.length = inputs.length := by simpa [buildResponse] using ha.length
  have hdims : ∀ v ∈ out.vectors, v.length = dims := by
    intro v hv
    obtain ⟨i, hi⟩ := List.mem_iff_getElem?.mp hv
    exact (ha.vector i _ (by rw [buildResponse_getElem?, hi]; rfl)).2.1
  have hgives : ∀ b ∈ numberedBatches inputs limit, ∀ j < b.1.length, ∃ v, e.Gives leg b.2 model b.1 dims j v :=
    fun b hb j hj => gives_of_aligned ha hb hj
  have hle := h.batches (R := fun c vs => c.length ≤ vs.length) fun b hb o ho => length_le_of_gives ho (hgives b hb)
  have heq := Chunks.forall₂_length_eq hle (by rw [← hout, hlen, splitBatches, Chunks.flatten_chunks])
  rintro ⟨batch, b⟩ hb
  obtain ⟨i, hi⟩ := List.mem_iff_getElem?.mp hb
  obtain ⟨o, ho, hembed⟩ := Chunks.forall₂_getElem? h hi
  have hvs : (outs.map (·.vectors))[i]? = some o.vectors := by rw [List.getElem?_map, ho]; rfl
  obtain ⟨c, hc, hsize⟩ := Chunks.getElem?_forall₂ heq hvs
  have hcb : c = batch := by
    unfold numberedBatches at hi
    rw [List.getElem?_zipIdx, hc] at hi
    cases hi
    rfl
  subst hcb
  refine fits_of_gives hembed (hgives _ hb) hsize ?_
  intro v hv
  refine hdims v ?_
  rw [hout]
  exact List.mem_flatten.mpr ⟨_, List.mem_of_getElem? hvs, hv⟩

end

end

/-! ## The serving leg -/

section
variable {g : EmbedGateway F} {limit : String → ℕ+} {inputs : List Text} {dims : Nat}

def Embedder.RespondsAll (e : Embedder F) (limit : ℕ+) (inputs : List Text) (dims i : Nat) (model : String) : Prop :=
  ∀ b ∈ numberedBatches inputs limit, e.Responds i b.2 model b.1 dims

/-- Leg `k` of the list, number `i + k` of the request, is the first that answers every
batch. -/
structure EmbedGateway.Serves (g : EmbedGateway F) (limit : String → ℕ+) (inputs : List Text) (dims i : Nat)
    (legs : List ChainLeg) (k : Nat) (leg : ChainLeg) (e : Embedder F) : Prop where
  leg_at : legs[k]? = some leg
  embedder : g.embedders leg.provider = some e
  responds : e.RespondsAll (limit leg.provider) inputs dims (i + k) leg.model
  first : ∀ k' < k, ∀ leg' e', legs[k']? = some leg' → g.embedders leg'.provider = some e' →
    ¬ e'.RespondsAll (limit leg'.provider) inputs dims (i + k') leg'.model

theorem embedAllBatches_ok_iff {e : Embedder F} {i : Nat} {leg : ChainLeg} {limit : ℕ+} :
    (∃ out, e.embedAllBatches i leg inputs dims limit = .ok out) ↔ e.RespondsAll limit inputs dims i leg.model := by
  constructor
  · intro h
    obtain ⟨out, h⟩ := h
    obtain ⟨outs, houts, -⟩ := batchesLane_ok h
    exact houts.responds
  · exact batchesLane_responds

theorem embedLegs_none {routeAlias : String} {i : Nat} {lastErr : Option GatewayError} {leg : ChainLeg} {legs : List ChainLeg}
    (he : g.embedders leg.provider = none) : g.embedLegs limit inputs dims routeAlias i lastErr (leg :: legs) =
      g.embedLegs limit inputs dims routeAlias (i + 1) lastErr legs := by
  unfold EmbedGateway.embedLegs
  rw [EmbedGateway.legsLane, he]

theorem embedLegs_some {routeAlias : String} {i : Nat} {lastErr : Option GatewayError} {leg : ChainLeg} {legs : List ChainLeg}
    {e : Embedder F} (he : g.embedders leg.provider = some e) :
    g.embedLegs limit inputs dims routeAlias i lastErr (leg :: legs) =
      match e.embedAllBatches i leg inputs dims (limit leg.provider) with
      | .ok out => .ok (leg, out)
      | .error err => g.embedLegs limit inputs dims routeAlias (i + 1) (some err) legs := by
  unfold EmbedGateway.embedLegs
  rw [EmbedGateway.legsLane, he]
  simp only
  rw [Trace.bind_pure]
  unfold Embedder.embedAllBatches
  cases (e.batchesLane i leg dims 0 (splitBatches inputs (limit leg.provider))).result with
  | ok out => rfl
  | error err => rfl

theorem EmbedGateway.Serves.cons {i : Nat} {a leg : ChainLeg} {legs : List ChainLeg} {k : Nat} {e : Embedder F}
    (h : g.Serves limit inputs dims (i + 1) legs k leg e)
    (ha : ∀ e', g.embedders a.provider = some e' → ¬ e'.RespondsAll (limit a.provider) inputs dims i a.model) :
    g.Serves limit inputs dims i (a :: legs) (k + 1) leg e where
  leg_at := h.leg_at
  embedder := h.embedder
  responds := by
    rw [Nat.add_left_comm, Nat.add_comm k]
    exact h.responds
  first := by
    intro k' hk leg' e' hleg he
    cases k' with
    | zero =>
      cases hleg
      exact ha e' he
    | succ k' =>
      have := h.first k' (Nat.lt_of_succ_lt_succ hk) leg' e' hleg he
      rwa [Nat.add_right_comm] at this

theorem EmbedGateway.Serves.tail {i : Nat} {a leg : ChainLeg} {legs : List ChainLeg} {k : Nat} {e : Embedder F}
    (h : g.Serves limit inputs dims i (a :: legs) (k + 1) leg e) : g.Serves limit inputs dims (i + 1) legs k leg e where
  leg_at := h.leg_at
  embedder := h.embedder
  responds := by
    have := h.responds
    rwa [Nat.add_comm k, ← Nat.add_assoc] at this
  first := by
    intro k' hk leg' e' hleg he
    have := h.first (k' + 1) (Nat.succ_lt_succ hk) leg' e' hleg he
    rwa [Nat.add_comm k', ← Nat.add_assoc] at this

/-- The legs give what the serving leg's batches give, and fail only when no leg serves. -/
theorem embedLegs_spec (g : EmbedGateway F) (limit : String → ℕ+) (inputs : List Text) (dims : Nat)
    (routeAlias : String) (i : Nat) (lastErr : Option GatewayError) (legs : List ChainLeg) :
    match g.embedLegs limit inputs dims routeAlias i lastErr legs with
    | .ok (leg, out) => ∃ k e, g.Serves limit inputs dims i legs k leg e ∧
        e.embedAllBatches (i + k) leg inputs dims (limit leg.provider) = .ok out
    | .error _ => ∀ k leg e, ¬ g.Serves limit inputs dims i legs k leg e := by
  induction legs generalizing i lastErr with
  | nil => exact fun k leg e h => by cases h.leg_at
  | cons a legs ih =>
    -- a leg that does not serve leaves the request to the rest
    have hskip : ∀ err, (∀ e', g.embedders a.provider = some e' →
        ¬ e'.RespondsAll (limit a.provider) inputs dims i a.model) →
        match g.embedLegs limit inputs dims routeAlias (i + 1) err legs with
        | .ok (leg, out) => ∃ k e, g.Serves limit inputs dims i (a :: legs) k leg e ∧
            e.embedAllBatches (i + k) leg inputs dims (limit leg.provider) = .ok out
        | .error _ => ∀ k leg e, ¬ g.Serves limit inputs dims i (a :: legs) k leg e := by
      intro err ha
      have ih := ih (i + 1) err
      cases h : g.embedLegs limit inputs dims routeAlias (i + 1) err legs with
      | ok r =>
        obtain ⟨leg, out⟩ := r
        rw [h] at ih
        obtain ⟨k, e, hserves, hout⟩ := ih
        refine ⟨k + 1, e, hserves.cons ha, ?_⟩
        rwa [Nat.add_assoc, Nat.add_comm 1] at hout
      | error err' =>
        rw [h] at ih
        intro k leg e hs
        cases k with
        | zero =>
          have hleg := hs.leg_at
          cases hleg
          exact ha e hs.embedder hs.responds
        | succ k => exact ih k leg e hs.tail
    cases he : g.embedders a.provider with
    | none =>
      rw [embedLegs_none he]
      exact hskip lastErr fun e' he' => by rw [he] at he'; cases he'
    | some e =>
      rw [embedLegs_some he]
      cases hall : e.embedAllBatches i a inputs dims (limit a.provider) with
      | ok out =>
        refine ⟨0, e, ⟨rfl, he, embedAllBatches_ok_iff.mp ⟨out, hall⟩, ?_⟩, hall⟩
        exact fun k' hk => absurd hk (Nat.not_lt_zero k')
      | error err =>
        refine hskip (some err) ?_
        intro e' he' hresp
        rw [he] at he'
        cases he'
        obtain ⟨out, hout⟩ := embedAllBatches_ok_iff.mpr hresp
        rw [hall] at hout
        cases hout

theorem EmbedGateway.Serves.unique {i k k' : Nat} {legs : List ChainLeg} {leg leg' : ChainLeg} {e e' : Embedder F}
    (h : g.Serves limit inputs dims i legs k leg e) (h' : g.Serves limit inputs dims i legs k' leg' e') :
    k = k' ∧ leg = leg' ∧ e = e' := by
  have hk : k = k' := by
    rcases Nat.lt_trichotomy k k' with hlt | heq | hlt
    · exact absurd h.responds (h'.first k hlt leg e h.leg_at h.embedder)
    · exact heq
    · exact absurd h'.responds (h.first k' hlt leg' e' h'.leg_at h'.embedder)
  subst hk
  have hleg := Option.some.inj (h.leg_at.symm.trans h'.leg_at)
  subst hleg
  exact ⟨rfl, rfl, Option.some.inj (h.embedder.symm.trans h'.embedder)⟩

end

/-- A served response has one vector for each input of the request, each of the alias's
length and the one the serving leg's provider gave for that input. -/
def EmbedGateway.Aligns (llm : LlmGuard) (g : EmbedGateway F) (limit : String → ℕ+) (ctx : RequestCtx) (uuid : String)
    (req : EmbeddingRequest) : Prop :=
  ∀ a out, g.admit llm req = .ok a → g.embedRouted llm limit ctx uuid req = .ok out →
    out.1.data.length = req.input.intoVec.length ∧
      ∃ k leg e, g.Serves limit a.inputs a.entry.dimensions 0 a.entry.legs k leg e ∧
        e.Aligned k leg.model a.entry.dimensions (limit leg.provider) a.inputs out.1

theorem screen_length (llm : LlmGuard) (eng : GuardEngine) (policy : String) (lane : GuardLane)
    (segments : List Segment) : (eng.screen llm policy lane segments).2.length = segments.length := by
  unfold GuardEngine.screen GuardEngine.screenRun
  cases eng.policy policy with
  | none => rfl
  | some p =>
    have hscans : (scanSegments llm policy lane p.input p.mode segments).length = segments.length := List.length_map _
    simp only
    split
    · split
      · simpa using hscans
      · split <;> simpa using hscans
    · simpa using hscans

theorem admit_inputs {llm : LlmGuard} {g : EmbedGateway F} {req : EmbeddingRequest} {a : AdmittedEmbedding}
    (h : g.admit llm req = .ok a) : a.inputs.length = req.input.intoVec.length := by
  obtain ⟨entry, -, h⟩ := Fallible.of_bind_ok h
  obtain ⟨masked, -, h⟩ := Fallible.of_bind_ok h
  cases h
  have hlen := screen_length llm g.guard (entry.policy.getD "default") .embeddings (embeddingLeaves req.input.intoVec)
  rw [List.length_map]
  exact hlen.trans (List.length_map _)

/-- A call gives what the legs give for the inputs that are admitted. -/
theorem embedRouted_eq (llm : LlmGuard) (g : EmbedGateway F) (limit : String → ℕ+) (ctx : RequestCtx) (uuid : String)
    (req : EmbeddingRequest) : g.embedRouted llm limit ctx uuid req = g.admit llm req >>= fun a =>
      (g.embedLegs limit a.inputs a.entry.dimensions req.model 0 none a.entry.legs).map fun served =>
        (buildResponse req.model served.2, a.masked) := by
  unfold EmbedGateway.embedRouted EmbedGateway.embedLane EmbedGateway.admit
  cases g.entryOf req with
  | error e => rfl
  | ok entry =>
    rw [Trace.lift_bind_ok]
    show _ = Except.bind (Except.bind (g.guard.screen llm (entry.policy.getD "default") .embeddings
      (embeddingLeaves req.input.intoVec)).1.outcome _) _
    rw [screen_eq_screenRun]
    cases hs : (g.guard.screenRun llm (entry.policy.getD "default") .embeddings
      (embeddingLeaves req.input.intoVec)).screened.outcome with
    | error e =>
      rw [Trace.bind_of_error (congrArg (Except.map _) hs)]
      rfl
    | ok masked =>
      rw [Trace.bind_of_ok (congrArg (Except.map _) hs)]
      show Trace.result (_ >>= _) = Except.map _ (g.embedLegs _ _ _ _ _ _ _)
      cases hlegs : g.embedLegs limit _ entry.dimensions req.model 0 none entry.legs with
      | error err =>
        rw [Trace.bind_of_error hlegs]
        rfl
      | ok served =>
        rw [Trace.bind_of_ok hlegs]
        rfl

theorem embedRouted_ok {llm : LlmGuard} {g : EmbedGateway F} {limit : String → ℕ+} {ctx : RequestCtx} {uuid : String}
    {req : EmbeddingRequest} {a : AdmittedEmbedding} (ha : g.admit llm req = .ok a) {out : EmbeddingResponse F × Bool}
    (h : g.embedRouted llm limit ctx uuid req = .ok out) :
    ∃ k leg e res, g.Serves limit a.inputs a.entry.dimensions 0 a.entry.legs k leg e ∧
      out.1 = buildResponse req.model res ∧
      ∃ outs, e.Outs k leg.model a.entry.dimensions (numberedBatches a.inputs (limit leg.provider)) outs ∧
        res.vectors = (outs.map (·.vectors)).flatten := by
  rw [embedRouted_eq, ha] at h
  have hspec := embedLegs_spec g limit a.inputs a.entry.dimensions req.model 0 none a.entry.legs
  obtain ⟨⟨leg, res⟩, hlegs, rfl⟩ := Fallible.of_map_ok h
  rw [hlegs] at hspec
  obtain ⟨k, e, hserves, hall⟩ := hspec
  rw [Nat.zero_add] at hall
  exact ⟨k, leg, e, res, hserves, rfl, batchesLane_ok hall⟩

theorem embedRouted_serves {llm : LlmGuard} {g : EmbedGateway F} {limit : String → ℕ+} (ctx : RequestCtx)
    (uuid : String) {req : EmbeddingRequest} {a : AdmittedEmbedding} (ha : g.admit llm req = .ok a) {k : Nat}
    {leg : ChainLeg} {e : Embedder F} (hs : g.Serves limit a.inputs a.entry.dimensions 0 a.entry.legs k leg e) :
    ∃ out, g.embedRouted llm limit ctx uuid req = .ok out := by
  have hspec := embedLegs_spec g limit a.inputs a.entry.dimensions req.model 0 none a.entry.legs
  rw [embedRouted_eq, ha]
  cases hlegs : g.embedLegs limit a.inputs a.entry.dimensions req.model 0 none a.entry.legs with
  | error err =>
    rw [hlegs] at hspec
    exact absurd hs (hspec k leg e)
  | ok served =>
    show ∃ out, (g.embedLegs limit a.inputs a.entry.dimensions req.model 0 none a.entry.legs).map _ = .ok out
    rw [hlegs]
    exact ⟨_, rfl⟩

/-- Embeddings are aligned exactly when the first leg that answers every batch answers
each with one vector of the alias's length for each of its inputs. -/
theorem embeddings_aligned_iff (llm : LlmGuard) (g : EmbedGateway F) (limit : String → ℕ+) (ctx : RequestCtx)
    (uuid : String) (req : EmbeddingRequest) :
    g.Aligns llm limit ctx uuid req ↔
      ∀ a k leg e, g.admit llm req = .ok a → g.Serves limit a.inputs a.entry.dimensions 0 a.entry.legs k leg e →
        ∀ b ∈ numberedBatches a.inputs (limit leg.provider), e.Fits k b.2 leg.model b.1 a.entry.dimensions := by
  constructor
  · intro h a k leg e ha hs
    obtain ⟨out, hout⟩ := embedRouted_serves ctx uuid ha hs
    obtain ⟨-, k', leg', e', hs', haligned⟩ := h a out ha hout
    obtain ⟨rfl, rfl, rfl⟩ := hs.unique hs'
    obtain ⟨k'', leg'', e'', res, hs'', hresp, outs, houts, hvectors⟩ := embedRouted_ok ha hout
    obtain ⟨rfl, rfl, rfl⟩ := hs.unique hs''
    rw [hresp] at haligned
    exact fits_of_aligned houts hvectors haligned
  · intro h a out ha hout
    obtain ⟨k, leg, e, res, hs, hresp, outs, houts, hvectors⟩ := embedRouted_ok ha hout
    have haligned := aligned_of_fits houts req.model hvectors (h a k leg e ha hs)
    rw [hresp]
    exact ⟨haligned.length.trans (admit_inputs ha), k, leg, e, hs, haligned⟩

/-- An OpenAI leg that answers three inputs with two vectors serves them. -/
def shortEmbedder : Embedder Nat :=
  .openai fun _ _ _ _ _ => .response { data := [⟨0, [10, 11]⟩, ⟨2, [30, 31]⟩] }

def embedGateway : EmbedGateway Nat where
  embedRoutes := [("embed", { dimensions := 2, legs := [{ provider := "openai", model := "text-embedding-3-small" }] })]
  embedders provider := if provider = "openai" then some shortEmbedder else none

def shortLeg : ChainLeg := { provider := "openai", model := "text-embedding-3-small" }

theorem shortEmbedder_all : ∃ res,
    shortEmbedder.embedAllBatches 0 shortLeg ["one".toList, "two".toList, "three".toList] 2
      (embedBatchLimit "openai") = .ok res ∧ res.vectors.length = 2 := by
  have hbatches : splitBatches ["one".toList, "two".toList, "three".toList] (embedBatchLimit "openai") =
      [["one".toList, "two".toList, "three".toList]] := by
    rw [splitBatches, Chunks.chunks_of_ne_nil (List.cons_ne_nil _ _)]
    exact congrArg (List.cons _) Chunks.chunks_nil
  unfold Embedder.embedAllBatches
  rw [hbatches]
  exact ⟨_, rfl, rfl⟩

theorem misaligned_short_answer : ¬ embedGateway.Aligns substringGuard embedBatchLimit {} "req_1"
    { input := .many ["one".toList, "two".toList, "three".toList], model := "embed" } := by
  intro h
  obtain ⟨res, hall, hlen⟩ := shortEmbedder_all
  have hlegs : embedGateway.embedLegs embedBatchLimit ["one".toList, "two".toList, "three".toList] 2 "embed" 0 none
      [shortLeg] = .ok (shortLeg, res) := by
    rw [embedLegs_some (e := shortEmbedder) (by simp [embedGateway, shortLeg])]
    have hall : shortEmbedder.embedAllBatches 0 shortLeg _ 2 (embedBatchLimit shortLeg.provider) = _ := hall
    rw [hall]
  have ha : embedGateway.admit substringGuard { input := .many ["one".toList, "two".toList, "three".toList], model := "embed" } =
      .ok ⟨{ dimensions := 2, legs := [shortLeg] }, ["one".toList, "two".toList, "three".toList], false⟩ := rfl
  have hlen3 := (h _ (buildResponse "embed" res, false) ha (by
    rw [embedRouted_eq, ha]
    show (embedGateway.embedLegs embedBatchLimit ["one".toList, "two".toList, "three".toList] 2 "embed" 0 none
      [shortLeg]).map _ = _
    rw [hlegs]
    rfl)).1
  rw [buildResponse, List.length_map, List.length_zipIdx, hlen] at hlen3
  cases hlen3

end SynapseGateway
