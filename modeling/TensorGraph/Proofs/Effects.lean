import TensorGraph.Proofs.Runs

/-!
What the writes of a rule come to, node by node.

The data on an output port ends up with what the writes say of the port (`portFact`); an input
that no other operation reads may be given a value (`inFact`); other data stay. Operations other
than the one inferred and those that feed it stay as well.
-/

namespace TensorGraph

/-! ### What writes say of a port -/

/-- What a write says of an output port. -/
def Write.tells (p : Nat) : Write → Option Fact
  | .outputShape q shape => if q = p then some (.ofShape shape) else none
  | .outputValue q value => if q = p then some (.ofValue value) else none
  | .outputUnknown q => if q = p then some .unknown else none
  | _ => none

/-- What a write gives an input port. -/
def Write.puts (p : Nat) : Write → Option Fact
  | .inputValue q value => if q = p then some (.ofValue value) else none
  | _ => none

def Fact.told (f : Fact) : Option Fact → Fact
  | some new => f.update new
  | none => f

/-- What is known on an output port after some writes. -/
def portFact (p : Nat) (f : Fact) (ws : List Write) : Fact :=
  ws.foldl (fun f w => f.told (w.tells p)) f

/-- What is known on an input port after some writes. -/
def inFact (p : Nat) (f : Fact) (ws : List Write) : Fact :=
  ws.foldl (fun f w => f.told (w.puts p)) f

@[simp] lemma portFact_nil (p : Nat) (f : Fact) : portFact p f [] = f := rfl

@[simp] lemma portFact_cons (p : Nat) (f : Fact) (w : Write) (ws : List Write) :
    portFact p f (w :: ws) = portFact p (f.told (w.tells p)) ws := rfl

lemma portFact_append (p : Nat) (f : Fact) (ws ws' : List Write) :
    portFact p f (ws ++ ws') = portFact p (portFact p f ws) ws' := List.foldl_append

namespace Graph

variable {g h : Graph} {op d j : NodeId} {o : Operation} {ws : List Write}

/-! ### Facts -/

lemma fact?_absorb_out (hg : g.WellFormed) (ho : g.op? op = some o) (ha : g.Apart op)
    {e : Edge} (he : e ∈ g.edges) (hsrc : e.src = op) (w : Write) :
    (g.absorb op w).fact? e.dst = (g.fact? e.dst).map (·.told (w.tells e.out)) := by
  have hout : ∀ (p : Nat) (f : Fact), (g.writeOut op p f).fact? e.dst =
      (g.fact? e.dst).map (·.told (if p = e.out then some f else none)) := by
    intro p f
    rw [fact?_writeOut]
    by_cases hp : p = e.out
    · rw [if_pos ((outTarget_eq_some hg ho).2 ⟨e, he, hsrc, hp.symm, rfl⟩), if_pos hp]
      rfl
    · rw [if_neg, if_neg hp]
      · exact (Option.map_id' ..).symm
      · intro ht
        obtain ⟨e', he', hsrc', hout', hdst'⟩ := (outTarget_eq_some hg ho).1 ht
        obtain ⟨f', hf'⟩ := ends_of_op_src hg he' (hsrc' ▸ ho)
        rw [eq_of_dst_eq hg he' he hdst' hf'] at hout'
        exact hp hout'.symm
  cases w with
  | attr name value => exact (fact?_modifyOp ..).trans (Option.map_id' ..).symm
  | inputValue p value =>
    refine Eq.trans ?_ (Option.map_id' ..).symm
    show (g.writeIn op p value).fact? e.dst = _
    rw [fact?_writeIn, if_neg]
    rintro ⟨hin, -⟩
    obtain ⟨e', he', hdst', -, hsrc'⟩ := (inSource_eq_some hg).1 hin
    exact ha e he e' he' hsrc hdst' hsrc'.symm
  | outputShape p shape => exact hout p _
  | outputValue p value => exact hout p _
  | outputUnknown p => exact hout p _

lemma fact?_settle_out (hg : g.WellFormed) (ho : g.op? op = some o) (ha : g.Apart op)
    {e : Edge} (he : e ∈ g.edges) (hsrc : e.src = op) (ws : List Write) :
    (g.settle op ws).fact? e.dst = (g.fact? e.dst).map (portFact e.out · ws) := by
  induction ws generalizing g o with
  | nil => exact (Option.map_id' ..).symm
  | cons w ws ih =>
    have hs : (g.absorb op w).skeleton = g.skeleton := skeleton_absorb w
    obtain ⟨o', ho'⟩ := exists_op?_of_skeleton hs ho
    show ((g.absorb op w).settle op ws).fact? e.dst = _
    rw [ih (hg.of_skeleton hs) ho' (ha.of_skeleton hs) (edges_of_skeleton hs ▸ he),
      fact?_absorb_out hg ho ha he hsrc, Option.map_map]
    rfl

lemma fact?_absorb_in (hg : g.WellFormed) (ho : g.op? op = some o) (ha : g.Apart op)
    {e : Edge} (he : e ∈ g.edges) (hdst : e.dst = op) (w : Write) :
    (g.absorb op w).fact? e.src = if (g.outgoing e.src).length ≤ 1 then
      (g.fact? e.src).map (·.told (w.puts e.inp)) else g.fact? e.src := by
  have hout : ∀ (p : Nat) (f : Fact), (g.writeOut op p f).fact? e.src = g.fact? e.src := by
    intro p f
    rw [fact?_writeOut, if_neg]
    intro ht
    obtain ⟨e', he', hsrc', -, hdst'⟩ := (outTarget_eq_some hg ho).1 ht
    exact ha e' he' e he hsrc' hdst hdst'
  -- a write that puts nothing on an input
  have hnone : g.fact? e.src = if (g.outgoing e.src).length ≤ 1 then
      (g.fact? e.src).map (·.told none) else g.fact? e.src := by
    rw [show (g.fact? e.src).map (·.told none) = g.fact? e.src from Option.map_id' .., ite_self]
  cases w with
  | attr name value => exact (fact?_modifyOp ..).trans hnone
  | inputValue p value =>
    show (g.writeIn op p value).fact? e.src = _
    rw [fact?_writeIn]
    by_cases hl : (g.outgoing e.src).length ≤ 1
    · rw [if_pos hl]
      by_cases hp : p = e.inp
      · rw [if_pos ⟨(inSource_eq_some hg).2 ⟨e, he, hdst, hp.symm, rfl⟩, hl⟩, Write.puts,
          if_pos hp]
        rfl
      · rw [if_neg, Write.puts, if_neg hp]
        · exact (Option.map_id' ..).symm
        rintro ⟨hin, -⟩
        obtain ⟨e', he', -, hinp', hsrc'⟩ := (inSource_eq_some hg).1 hin
        rw [eq_of_unshared hl he' he hsrc' rfl] at hinp'
        exact hp hinp'.symm
    · rw [if_neg hl, if_neg fun h => hl h.2]
  | outputShape p shape => exact (hout p _).trans hnone
  | outputValue p value => exact (hout p _).trans hnone
  | outputUnknown p => exact (hout p _).trans hnone

lemma fact?_settle_in (hg : g.WellFormed) (ho : g.op? op = some o) (ha : g.Apart op)
    {e : Edge} (he : e ∈ g.edges) (hdst : e.dst = op) (ws : List Write) :
    (g.settle op ws).fact? e.src = if (g.outgoing e.src).length ≤ 1 then
      (g.fact? e.src).map (inFact e.inp · ws) else g.fact? e.src := by
  induction ws generalizing g o with
  | nil =>
    rw [show (g.fact? e.src).map (inFact e.inp · []) = g.fact? e.src from Option.map_id' ..,
      ite_self]
    rfl
  | cons w ws ih =>
    have hs : (g.absorb op w).skeleton = g.skeleton := skeleton_absorb w
    obtain ⟨o', ho'⟩ := exists_op?_of_skeleton hs ho
    show ((g.absorb op w).settle op ws).fact? e.src = _
    rw [ih (hg.of_skeleton hs) ho' (ha.of_skeleton hs) (edges_of_skeleton hs ▸ he),
      outgoing_of_skeleton hs, fact?_absorb_in hg ho ha he hdst]
    split
    · rw [Option.map_map]
      rfl
    · rfl

/-- Data that the operation does not make, and that it shares with other edges if it reads them. -/
lemma fact?_settle_of_shared (hg : g.WellFormed) (ho : g.op? op = some o)
    (hd : ∀ e ∈ g.edges, e.src = op → e.dst ≠ d)
    (hd' : ∀ e ∈ g.edges, e.dst = op → e.src = d → 1 < (g.outgoing d).length)
    (ws : List Write) : (g.settle op ws).fact? d = g.fact? d := by
  have hout : ∀ {g : Graph} {o : Operation}, g.WellFormed → g.op? op = some o →
      (∀ e ∈ g.edges, e.src = op → e.dst ≠ d) → ∀ (p : Nat) (f : Fact),
      (g.writeOut op p f).fact? d = g.fact? d := by
    intro g o hg ho hd p f
    rw [fact?_writeOut, if_neg]
    intro ht
    obtain ⟨e, he, hsrc, -, hdst⟩ := (outTarget_eq_some hg ho).1 ht
    exact hd e he hsrc hdst
  induction ws generalizing g o with
  | nil => rfl
  | cons w ws ih =>
    have hs : (g.absorb op w).skeleton = g.skeleton := skeleton_absorb w
    obtain ⟨o', ho'⟩ := exists_op?_of_skeleton hs ho
    show ((g.absorb op w).settle op ws).fact? d = _
    rw [ih (hg.of_skeleton hs) ho' (edges_of_skeleton hs ▸ hd)
      (by rwa [edges_of_skeleton hs, outgoing_of_skeleton hs])]
    cases w with
    | attr name value => exact fact?_modifyOp ..
    | inputValue p value =>
      show (g.writeIn op p value).fact? d = _
      rw [fact?_writeIn, if_neg]
      rintro ⟨hin, hl⟩
      obtain ⟨e, he, hdst, -, hsrc⟩ := (inSource_eq_some hg).1 hin
      exact Nat.not_le_of_lt (hd' e he hdst hsrc) hl
    | outputShape p shape => exact hout hg ho hd p _
    | outputValue p value => exact hout hg ho hd p _
    | outputUnknown p => exact hout hg ho hd p _

/-- Data at a distance from the operation. -/
lemma fact?_settle_of_forall (hg : g.WellFormed) (ho : g.op? op = some o)
    (hd : ∀ e ∈ g.edges, e.src = op → e.dst ≠ d) (hd' : ∀ e ∈ g.edges, e.dst = op → e.src ≠ d)
    (ws : List Write) : (g.settle op ws).fact? d = g.fact? d :=
  fact?_settle_of_shared hg ho hd (fun e he hdst hsrc => absurd hsrc (hd' e he hdst)) ws

/-- Data that another operation reads, unless it is on an output port. -/
lemma fact?_settle_of_reader (hg : g.WellFormed) (ho : g.op? op = some o)
    (hd : ∀ e ∈ g.edges, e.src = op → e.dst ≠ d) {e : Edge} (he : e ∈ g.edges) (hsrc : e.src = d)
    (hdst : e.dst ≠ op) (ws : List Write) : (g.settle op ws).fact? d = g.fact? d := by
  refine fact?_settle_of_shared hg ho hd (fun e' he' hdst' hsrc' => ?_) ws
  by_contra hl
  obtain rfl := eq_of_unshared (Nat.le_of_not_lt hl) he he' hsrc hsrc'
  exact hdst hdst'

/-! ### Operations -/

lemma op?_absorb_of_ne (hg : g.WellFormed) (hj : j ≠ op)
    (hp : ∀ e ∈ g.edges, e.dst = op → ∀ e' ∈ g.edges, e'.dst = e.src → e'.src ≠ j) (w : Write) :
    (g.absorb op w).op? j = g.op? j := by
  cases w with
  | attr name value =>
    show (g.modifyOp op _).op? j = _
    rw [op?_modifyOp, if_neg hj]
  | inputValue p value =>
    show (g.writeIn op p value).op? j = _
    unfold writeIn
    rcases hin : g.inSource op p with _ | d
    · rfl
    · simp only
      split
      · rfl
      · rw [op?_modifyFact]
        unfold storeProducer
        rcases hhead : (g.incoming d).head? with _ | e'
        · rfl
        · simp only
          rw [op?_modifyOp, if_neg]
          obtain ⟨e, he, hdst, -, hsrc⟩ := (inSource_eq_some hg).1 hin
          obtain ⟨he', hdst'⟩ := mem_incoming.1 (List.mem_of_mem_head? hhead)
          exact fun h => hp e he hdst e' he' (hdst'.trans hsrc.symm) h.symm
  | outputShape p shape => exact op?_writeOut _
  | outputValue p value => exact op?_writeOut _
  | outputUnknown p => exact op?_writeOut _

/-- Operations other than the one inferred and those that feed it. -/
lemma op?_settle_of_ne (hg : g.WellFormed) (hj : j ≠ op)
    (hp : ∀ e ∈ g.edges, e.dst = op → ∀ e' ∈ g.edges, e'.dst = e.src → e'.src ≠ j)
    (ws : List Write) : (g.settle op ws).op? j = g.op? j := by
  induction ws generalizing g with
  | nil => rfl
  | cons w ws ih =>
    have hs : (g.absorb op w).skeleton = g.skeleton := skeleton_absorb w
    show ((g.absorb op w).settle op ws).op? j = _
    rw [ih (hg.of_skeleton hs) (edges_of_skeleton hs ▸ hp), op?_absorb_of_ne hg hj hp]

/-! ### What comes later -/

section

variable {done rest : List NodeId} (hready : g.Ready done (op :: rest))
  (hclosed : ∀ i ∈ done, g.sources i ⊆ done)

include hready hclosed

/-- What stands later in an order feeds no source of the operation. -/
lemma not_feeding_of_later (hj : j ∈ rest) : ∀ e ∈ g.edges, e.dst = op → ∀ e' ∈ g.edges,
    e'.dst = e.src → e'.src ≠ j := by
  rintro e he hdst e' he' hdst' rfl
  have hsrc : e.src ∈ done := hready.2.1 (mem_sources.2 ⟨e, he, hdst, rfl⟩)
  have hsrc' : e'.src ∈ done := hclosed e.src hsrc (mem_sources.2 ⟨e', he', hdst', rfl⟩)
  exact hready.not_mem_done (List.mem_cons_of_mem op hj) hsrc'

lemma op?_settle_of_later (hg : g.WellFormed) (hj : j ∈ rest) (ws : List Write) :
    (g.settle op ws).op? j = g.op? j := by
  refine op?_settle_of_ne hg (fun heq => ?_) (not_feeding_of_later hready hclosed hj) ws
  exact (List.nodup_cons.1 hready.nodup).1 (heq ▸ hj)

/-- The outputs of what stands later in an order. -/
lemma fact?_settle_of_later (hg : g.WellFormed) (ho : g.op? op = some o) {e : Edge}
    (he : e ∈ g.edges) (hj : e.src ∈ rest) (ws : List Write) :
    (g.settle op ws).fact? e.dst = g.fact? e.dst := by
  refine fact?_settle_of_forall hg ho (fun e' he' hsrc hdst => ?_) (fun e' he' hdst hsrc => ?_) ws
  · obtain ⟨f, hf⟩ := ends_of_op_src hg he' (hsrc ▸ ho)
    obtain rfl := eq_of_dst_eq hg he' he hdst hf
    exact (List.nodup_cons.1 hready.nodup).1 (hsrc ▸ hj)
  · exact not_feeding_of_later hready hclosed hj e' he' hdst e he hsrc.symm rfl

end

end Graph

end TensorGraph
