import TensorGraph.Proofs.Pinning

/-!
Which patterns are written at a site.

In a well-formed graph a product finds its sites (`Graph.reshapeSite_eq_some`) and knows what to
write there without failing. A pattern is only replaced by one that reshapes to the same
(`Graph.replacement_iff`). So what one operand asked for is what it asks for again, whatever the
others wrote before or after (`Graph.revise_settle`).
-/

namespace TensorGraph

namespace Graph

variable {g : Graph} {op r d matmul : NodeId} {p : Nat} {operand : Operand} {kind : String}
  {s : ReshapeSite} {new : Shape}

/-! ### What is found without failing -/

/-- The operation that an input port is fed from. -/
def origin? (g : Graph) (op : NodeId) (p : Nat) : Option NodeId :=
  (g.inSource op p).bind fun d => (g.incoming d).head?.map (·.src)

lemma head?_incoming_eq_some (hg : g.WellFormed) {f : Fact} (hd : g.fact? d = some f) :
    (g.incoming d).head?.map (·.src) = some r ↔ ∃ e ∈ g.edges, e.src = r ∧ e.dst = d := by
  rw [Option.map_eq_some_iff]
  constructor
  · rintro ⟨e, he, rfl⟩
    obtain ⟨he, hdst⟩ := mem_incoming.1 (List.mem_of_mem_head? he)
    exact ⟨e, he, rfl, hdst⟩
  · rintro ⟨e, he, rfl, rfl⟩
    rcases hin : g.incoming e.dst with _ | ⟨e', l⟩
    · exact absurd (mem_incoming.2 ⟨he, rfl⟩) (by simp [hin])
    · obtain ⟨he', hdst⟩ := mem_incoming.1 (show e' ∈ g.incoming e.dst by simp [hin])
      exact ⟨e', rfl, by rw [eq_of_dst_eq hg he he' hdst.symm hd]⟩

lemma origin?_eq_some (hg : g.WellFormed) (ho : g.kind? op = some kind) : g.origin? op p = some r ↔
    ∃ e ∈ g.edges, e.dst = op ∧ e.inp = p ∧ ∃ e' ∈ g.edges, e'.src = r ∧ e'.dst = e.src := by
  obtain ⟨o, ho, -⟩ := kind?_eq_some.1 ho
  unfold origin?
  rw [Option.bind_eq_some_iff]
  constructor
  · rintro ⟨d, hd, hr⟩
    obtain ⟨f, hf⟩ := exists_fact_of_inSource hg ho hd
    obtain ⟨e, he, hdst, hinp, rfl⟩ := (inSource_eq_some hg).1 hd
    exact ⟨e, he, hdst, hinp, (head?_incoming_eq_some hg hf).1 hr⟩
  · rintro ⟨e, he, rfl, rfl, hr⟩
    obtain ⟨f, hf⟩ := ends_of_op_dst hg he ho
    exact ⟨e.src, inSource_of_edge hg he, (head?_incoming_eq_some hg hf).2 hr⟩

lemma producerOp_eq (hg : g.WellFormed) (ho : g.kind? op = some kind) (p : Nat) :
    g.producerOp op p = .ok (g.origin? op p) := by
  obtain ⟨o, ho, -⟩ := kind?_eq_some.1 ho
  unfold producerOp origin?
  rw [inputData_eq ho, ok_bind]
  rcases hd : g.inSource op p with _ | d
  · rfl
  · obtain ⟨f, hf⟩ := exists_fact_of_inSource hg ho hd
    exact producer_eq hf

/-- An input port is fed from an operation. -/
lemma exists_kind_of_origin (hg : g.WellFormed) (ho : g.kind? op = some kind)
    (hr : g.origin? op p = some r) : ∃ kind', g.kind? r = some kind' := by
  obtain ⟨e, he, hdst, -, e', he', rfl, hdst'⟩ := (origin?_eq_some hg ho).1 hr
  obtain ⟨o, ho, -⟩ := kind?_eq_some.1 ho
  obtain ⟨f, hf⟩ := ends_of_op_dst hg he (hdst ▸ ho)
  obtain ⟨o', ho'⟩ := ends_of_fact_dst hg he' (hdst' ▸ hf)
  exact ⟨o'.kind, kind?_eq_some.2 ⟨o', ho', rfl⟩⟩

lemma knownShape_eq (hg : g.WellFormed) (ho : g.kind? op = some kind) (p : Nat) :
    g.knownShape op p = .ok (g.inputShape? op p) := by
  obtain ⟨o, ho, -⟩ := kind?_eq_some.1 ho
  unfold knownShape inputShape? inputFact?
  rw [inputData_eq ho, ok_bind]
  rcases hd : g.inSource op p with _ | d
  · rfl
  · obtain ⟨f, hf⟩ := exists_fact_of_inSource hg ho hd
    simp only [fact_eq_ok.2 hf, ok_bind, Option.bind_some, hf]
    rfl

lemma flag_eq {attributes : Attributes} (ha : g.attributes? op = some attributes) (name : String)
    (default : Bool) :
    g.flag op name default = .ok (((attributes.find? name).bind (·.toBool?)).getD default) := by
  obtain ⟨o, ho, rfl⟩ := Option.map_eq_some_iff.1 ha
  unfold flag
  rw [operation_eq_ok.2 ho, ok_bind]
  rfl

lemma exists_attributes_of_kind (ho : g.kind? op = some kind) :
    ∃ attributes, g.attributes? op = some attributes := by
  obtain ⟨o, ho, -⟩ := kind?_eq_some.1 ho
  exact ⟨_, attributes?_of_op? ho⟩

lemma comesFrom_eq (hg : g.WellFormed) (ho : g.kind? op = some kind) (p : Nat)
    (kinds : List String) : g.comesFrom op p kinds =
      .ok (match g.origin? op p with
        | some r => kinds.any fun k => g.kind? r = some k
        | none => false) := by
  unfold comesFrom
  rw [producerOp_eq hg ho, ok_bind]
  rcases hr : g.origin? op p with _ | r
  · rfl
  · obtain ⟨kind', hkind'⟩ := exists_kind_of_origin hg ho hr
    obtain ⟨o', ho', -⟩ := kind?_eq_some.1 hkind'
    obtain ⟨name, hn⟩ := op?_eq_some.1 ho'
    simp only [node_eq_ok.2 hn, ok_bind]
    refine congrArg Except.ok (congrArg kinds.any (funext fun k => ?_))
    rw [Bool.eq_iff_iff, isOpOf_iff hn, decide_eq_true_eq]

lemma exists_newPattern (hg : g.WellFormed) (ho : g.kind? matmul = some kind) (operand : Operand) :
    ∃ x, g.newPattern matmul operand = .ok x := by
  obtain ⟨attributes, ha⟩ := exists_attributes_of_kind ho
  unfold newPattern
  simp only [flag_eq ha, comesFrom_eq hg ho, knownShape_eq hg ho, ok_bind]
  repeat' split
  all_goals exact ⟨_, rfl⟩

/-! ### Replacements -/

/-- Two patterns reshape the input of a reshape, and to the same. -/
def SameAt (g : Graph) (r : NodeId) (before after : Shape) : Prop :=
  ∃ input copyZero, g.knownShape r 0 = .ok (some input) ∧
    g.flag r "special_zero" true = .ok copyZero ∧ sameReshape input before after copyZero = true

lemma sameReshape_iff {input before after : Shape} {copyZero : Bool} :
    sameReshape input before after copyZero = true ↔
      ∃ x, Shape.reshape input before copyZero = .ok x ∧
        Shape.reshape input after copyZero = .ok x := by
  unfold sameReshape
  rcases Shape.reshape input before copyZero with e | x <;>
    rcases Shape.reshape input after copyZero with e' | y <;> simp
  exact eq_comm

variable {a b c : Shape}

lemma SameAt.symm (h : g.SameAt r a b) : g.SameAt r b a := by
  obtain ⟨input, copyZero, hinput, hzero, hsame⟩ := h
  obtain ⟨x, ha, hb⟩ := sameReshape_iff.1 hsame
  exact ⟨input, copyZero, hinput, hzero, sameReshape_iff.2 ⟨x, hb, ha⟩⟩

lemma SameAt.trans (h : g.SameAt r a b) (h' : g.SameAt r b c) : g.SameAt r a c := by
  obtain ⟨input, copyZero, hinput, hzero, hsame⟩ := h
  obtain ⟨input', copyZero', hinput', hzero', hsame'⟩ := h'
  obtain rfl := Option.some.inj (Except.ok.inj (hinput.symm.trans hinput'))
  obtain rfl := Except.ok.inj (hzero.symm.trans hzero')
  obtain ⟨x, ha, hb⟩ := sameReshape_iff.1 hsame
  obtain ⟨y, hb', hc⟩ := sameReshape_iff.1 hsame'
  obtain rfl := Except.ok.inj (hb.symm.trans hb')
  exact ⟨input, copyZero, hinput, hzero, sameReshape_iff.2 ⟨x, ha, hc⟩⟩

/-- A pattern is replaced by what an operand asks for, as a tensor holds it, if that is another one
and reshapes to the same. -/
lemma replacement_iff : g.replacement matmul operand s = .ok (some new) ↔
    (∃ pattern, g.newPattern matmul operand = .ok (some pattern) ∧
      new = (Tensor.ofInts pattern).toInts) ∧ s.pattern ≠ new ∧
      g.SameAt s.reshape s.pattern new := by
  rw [replacement_eq_some]
  constructor
  · rintro ⟨pattern, input, copyZero, hpattern, hcells, hne, hinput, hzero, hsame⟩
    exact ⟨⟨pattern, hpattern, hcells⟩, hne, input, copyZero, hinput, hzero, hsame⟩
  · rintro ⟨⟨pattern, hpattern, hcells⟩, hne, input, copyZero, hinput, hzero, hsame⟩
    exact ⟨pattern, input, copyZero, hpattern, hcells, hne, hinput, hzero, hsame⟩

lemma exists_replacement (hg : g.WellFormed) (ho : g.kind? matmul = some kind)
    (operand : Operand) (hr : g.kind? s.reshape = some "Reshape") :
    ∃ x, g.replacement matmul operand s = .ok x := by
  obtain ⟨pattern?, hpattern⟩ := exists_newPattern hg ho operand
  obtain ⟨attributes, ha⟩ := exists_attributes_of_kind hr
  unfold replacement
  simp only [hpattern, flag_eq ha, knownShape_eq hg hr, ok_bind]
  repeat' split
  all_goals exact ⟨_, rfl⟩

lemma toInts_of_replacement (hnew : g.replacement matmul operand s = .ok (some new)) :
    (Tensor.ofInts new).toInts = new := (reshape_eq_of_replacement hnew).1

lemma length_of_replacement (hnew : g.replacement matmul operand s = .ok (some new)) :
    new.length = 2 := by
  obtain ⟨⟨pattern, hpattern, rfl⟩, -⟩ := replacement_iff.1 hnew
  obtain ⟨transposeA, transposeB, _, inner, -, -, -, -, -, -, rfl⟩ := newPattern_eq_some.1 hpattern
  have hlen := Operand.length_pinned operand inner transposeA transposeB
  rw [Tensor.toInts_vector (by rw [hlen]; decide), List.length_map, List.length_map, hlen]

/-! ### Sites -/

/-- A reshape by a constant pattern of two dimensions, in a graph. -/
structure IsSite (g : Graph) (s : ReshapeSite) : Prop extends g.HasSite s where
  two : s.pattern.length = 2

lemma HasSite.inSource (hs : g.HasSite s) (hg : g.WellFormed) :
    g.inSource s.reshape 1 = some s.data := by
  obtain ⟨e, he, hsrc, hdst, hinp⟩ := hs.read
  exact (inSource_eq_some hg).2 ⟨e, he, hdst, hinp, hsrc⟩

lemma hasSite_congr {k : Graph} (hreshape : k.kind? s.reshape = g.kind? s.reshape)
    (hconstant : k.kind? s.constant = g.kind? s.constant) (hfact : k.fact? s.data = g.fact? s.data)
    (hread : ∀ e, e.src = s.data → e.dst = s.reshape → (e ∈ k.edges ↔ e ∈ g.edges))
    (hwritten : ∀ e, e.src = s.constant → e.dst = s.data → (e ∈ k.edges ↔ e ∈ g.edges)) :
    k.HasSite s ↔ g.HasSite s := by
  constructor
  · rintro ⟨hr, hc, ⟨e, he, hsrc, hdst, hinp⟩, ⟨e', he', hsrc', hdst'⟩, hvalue⟩
    exact ⟨hreshape ▸ hr, hconstant ▸ hc, ⟨e, (hread e hsrc hdst).1 he, hsrc, hdst, hinp⟩,
      ⟨e', (hwritten e' hsrc' hdst').1 he', hsrc', hdst'⟩, hfact ▸ hvalue⟩
  · rintro ⟨hr, hc, ⟨e, he, hsrc, hdst, hinp⟩, ⟨e', he', hsrc', hdst'⟩, hvalue⟩
    exact ⟨hreshape ▸ hr, hconstant ▸ hc, ⟨e, (hread e hsrc hdst).2 he, hsrc, hdst, hinp⟩,
      ⟨e', (hwritten e' hsrc' hdst').2 he', hsrc', hdst'⟩, hfact ▸ hvalue⟩

/-- A reshape has one site. -/
lemma HasSite.unique (hg : g.WellFormed) {s' : ReshapeSite} (hs : g.HasSite s) (hs' : g.HasSite s')
    (hreshape : s'.reshape = s.reshape) : s' = s := by
  have hdata : s'.data = s.data :=
    Option.some.inj ((hs'.inSource hg).symm.trans (hreshape ▸ hs.inSource hg))
  obtain ⟨f, t, hf, ht, hpattern⟩ := hs.value
  obtain ⟨f', t', hf', ht', hpattern'⟩ := hs'.value
  rw [hdata, hf, Option.some.injEq] at hf'
  subst hf'
  obtain rfl := Option.some.inj (ht.symm.trans ht')
  obtain ⟨e, he, hsrc, hdst⟩ := hs.written
  obtain ⟨e', he', hsrc', hdst'⟩ := hs'.written
  obtain rfl := eq_of_dst_eq hg he he' (hdst.trans (hdata ▸ hdst').symm) (hdst ▸ hf)
  obtain ⟨reshape, constant, data, pattern⟩ := s
  obtain ⟨reshape', constant', data', pattern'⟩ := s'
  simp_all

/-- A product finds the sites of the reshapes that feed it. -/
lemma reshapeSite_eq_some (hg : g.WellFormed) (ho : g.kind? matmul = some kind) :
    g.reshapeSite matmul operand = .ok (some s) ↔
      g.origin? matmul operand.port = some s.reshape ∧ g.IsSite s := by
  constructor
  · intro hx
    obtain ⟨hr, hs, htwo⟩ := found_of_reshapeSite hx
    exact ⟨Except.ok.inj ((producerOp_eq hg ho _).symm.trans hr), hs, htwo⟩
  · rintro ⟨hr, hs⟩
    obtain ⟨o, ho', hkind⟩ := kind?_eq_some.1 hs.reshape
    obtain ⟨c, hc, hconst⟩ := kind?_eq_some.1 hs.constant
    obtain ⟨name, hn⟩ := op?_eq_some.1 ho'
    obtain ⟨name', hn'⟩ := op?_eq_some.1 hc
    obtain ⟨f, t, hf, ht, hpattern⟩ := hs.value
    have hproducer : g.producer s.data = .ok (some s.constant) := by
      rw [producer_eq hf, (head?_incoming_eq_some hg hf).2 hs.written]
    have htwo := hs.two
    rw [hpattern] at htwo
    unfold reshapeSite
    rw [producerOp_eq hg ho, ok_bind, hr]
    simp only [node_eq_ok.2 hn, node_eq_ok.2 hn', ok_bind, (isOpOf_iff hn).2 hs.reshape,
      (isOpOf_iff hn').2 hs.constant, inputData_eq ho', hs.inSource hg, hproducer,
        fact_eq_ok.2 hf, ht,
      htwo]
    rw [← hpattern]
    rfl

lemma exists_reshapeSite (hg : g.WellFormed) (ho : g.kind? matmul = some kind) (operand : Operand) :
    ∃ x, g.reshapeSite matmul operand = .ok x := by
  unfold reshapeSite
  rw [producerOp_eq hg ho, ok_bind]
  rcases hr : g.origin? matmul operand.port with _ | r
  · exact ⟨_, rfl⟩
  obtain ⟨kind', hkind'⟩ := exists_kind_of_origin hg ho hr
  obtain ⟨o', ho', -⟩ := kind?_eq_some.1 hkind'
  obtain ⟨name, hn⟩ := op?_eq_some.1 ho'
  simp only [node_eq_ok.2 hn, ok_bind, inputData_eq ho']
  split
  · exact ⟨_, rfl⟩
  rcases hd : g.inSource r 1 with _ | d
  · exact ⟨_, rfl⟩
  obtain ⟨f, hf⟩ := exists_fact_of_inSource hg ho' hd
  simp only [producer_eq hf, ok_bind, fact_eq_ok.2 hf]
  rcases hc : (g.incoming d).head?.map (·.src) with _ | c
  · rw [hc]
    exact ⟨_, rfl⟩
  obtain ⟨e, he, rfl, rfl⟩ := (head?_incoming_eq_some hg hf).1 hc
  obtain ⟨m, -, hm, -⟩ := hg.ends he
  rw [hc]
  simp only [node_eq_ok.2 hm, ok_bind]
  repeat' split
  all_goals exact ⟨_, rfl⟩

/-! ### What is written at a site -/

/-- The site after an operand of a product asked for a pattern. -/
def revise (g : Graph) (s : ReshapeSite) (p : NodeId × Operand) : ReshapeSite :=
  match g.replacement p.1 p.2 s with
  | .ok (some new) => if g.origin? p.1 p.2.port = some s.reshape then
      { s with pattern := new } else s
  | _ => s

variable {pair : NodeId × Operand}

/-- A site stays, or the reshape feeds an operand that asks for another pattern. -/
lemma revise_eq (g : Graph) (s : ReshapeSite) (pair : NodeId × Operand) : g.revise s pair = s ∨
    ∃ new, g.origin? pair.1 pair.2.port = some s.reshape ∧
      g.replacement pair.1 pair.2 s = .ok (some new) ∧
        g.revise s pair = { s with pattern := new } := by
  unfold revise
  split
  · next new hnew =>
    split
    · next hfeeds => exact .inr ⟨new, hfeeds, hnew, rfl⟩
    · exact .inl rfl
  · exact .inl rfl

lemma revise_of_replacement (hfeeds : g.origin? pair.1 pair.2.port = some s.reshape)
    (hnew : g.replacement pair.1 pair.2 s = .ok (some new)) :
    g.revise s pair = { s with pattern := new } := by
  unfold revise
  rw [hnew]
  exact if_pos hfeeds

/-- Only the pattern changes, to one that reshapes to the same. -/
lemma settle_eq (g : Graph) (s : ReshapeSite) (pairs : List (NodeId × Operand)) :
    ∃ pattern, pairs.foldl g.revise s = { s with pattern } ∧
      (pattern = s.pattern ∨ g.SameAt s.reshape s.pattern pattern) := by
  induction pairs generalizing s with
  | nil => exact ⟨s.pattern, rfl, .inl rfl⟩
  | cons pair pairs ih =>
    rw [List.foldl_cons]
    rcases g.revise_eq s pair with hstay | ⟨new, -, hnew, hrevise⟩
    · rw [hstay]
      exact ih s
    · obtain ⟨-, -, hsame⟩ := replacement_iff.1 hnew
      obtain ⟨pattern, hsettle, hpattern⟩ := ih { s with pattern := new }
      refine ⟨pattern, hrevise ▸ hsettle, .inr ?_⟩
      rcases hpattern with rfl | hsame'
      · exact hsame
      · exact hsame.trans hsame'

section

variable (g : Graph) (s : ReshapeSite) (pairs : List (NodeId × Operand))

@[simp] lemma settle_reshape : (pairs.foldl g.revise s).reshape = s.reshape := by
  obtain ⟨pattern, hsettle, -⟩ := g.settle_eq s pairs
  rw [hsettle]

@[simp] lemma settle_constant : (pairs.foldl g.revise s).constant = s.constant := by
  obtain ⟨pattern, hsettle, -⟩ := g.settle_eq s pairs
  rw [hsettle]

@[simp] lemma settle_data : (pairs.foldl g.revise s).data = s.data := by
  obtain ⟨pattern, hsettle, -⟩ := g.settle_eq s pairs
  rw [hsettle]

end

/-- What an operand asked for it asks for again after others have asked. -/
lemma revise_settle (hfeeds : g.origin? pair.1 pair.2.port = some s.reshape)
    (hnew : g.replacement pair.1 pair.2 s = .ok (some new)) (pairs : List (NodeId × Operand)) :
    g.revise (pairs.foldl g.revise { s with pattern := new }) pair = { s with pattern := new } := by
  obtain ⟨hasked, -, hsame⟩ := replacement_iff.1 hnew
  obtain ⟨pattern, hsettle, hpattern⟩ := g.settle_eq { s with pattern := new } pairs
  rw [hsettle]
  by_cases heq : pattern = new
  · -- the pattern asked for is there
    subst heq
    rcases g.revise_eq { s with pattern } pair with hstay | ⟨other, -, hother, -⟩
    · exact hstay
    · obtain ⟨⟨asked, hasks, rfl⟩, hne, -⟩ := replacement_iff.1 hother
      obtain ⟨asked', hasks', rfl⟩ := hasked
      obtain rfl := Option.some.inj (Except.ok.inj (hasks.symm.trans hasks'))
      exact absurd rfl hne
  · refine revise_of_replacement (s := { s with pattern }) hfeeds
      (replacement_iff.2 ⟨hasked, heq, ?_⟩)
    exact (hpattern.resolve_left heq).symm

end Graph

end TensorGraph
