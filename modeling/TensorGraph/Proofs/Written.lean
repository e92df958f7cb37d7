import TensorGraph.Proofs.RuleSpecs
import TensorGraph.Proofs.ShapeBounds

/-!
What standard rules leave known.

What is written to an output is `Shaped`: a value in it has the shape in it. In a scene with shaped
inputs a folded value has the shape that is said before it (`Folds`), and a value given to an input
keeps the shape of the input (`Safe`).
-/

namespace TensorGraph

/-! ### Facts after writes -/

lemma Fact.update_of_ne {f new : Fact} (h : (f == new) = false) : f.update new = new := by
  rw [Fact.update, h]
  rfl

lemma Fact.eq_of_beq_none {f : Fact} {shape : Option Shape} (h : (f == ⟨shape, none⟩) = true) :
    f = ⟨shape, none⟩ := by
  obtain ⟨a, v⟩ := f
  have h' : (a == shape && v == none) = true := h
  rw [Bool.and_eq_true] at h'
  obtain ⟨ha, hv⟩ := h'
  rcases v with _ | t
  · rw [LawfulBEq.eq_of_beq ha]
  · cases hv

/-- A fact without a value is taken over as it is. -/
lemma Fact.update_none (f : Fact) (shape : Option Shape) :
    f.update ⟨shape, none⟩ = ⟨shape, none⟩ := by
  unfold Fact.update
  split
  · exact Fact.eq_of_beq_none ‹_›
  · rfl

@[simp] lemma Fact.update_ofShape (f : Fact) (a : Shape) : f.update (.ofShape a) = .ofShape a :=
  f.update_none (some a)

@[simp] lemma Fact.update_unknown (f : Fact) : f.update .unknown = .unknown := f.update_none none

/-- A value is taken over as it is where none was known. -/
@[simp] lemma Fact.ofShape_update_ofValue (a : Shape) (t : Tensor) :
    (Fact.ofShape a).update (.ofValue t) = .ofValue t := by
  refine Fact.update_of_ne ?_
  show (some a == some t.dims && (none : Option Tensor) == some t) = false
  rw [Bool.and_eq_false_iff]
  exact Or.inr rfl

lemma Fact.shape_update (f : Fact) (t : Tensor) : (f.update (.ofValue t)).shape = some t.dims := by
  unfold Fact.update
  split
  · next h =>
    have h' : (f.shape == some t.dims && f.value == some t) = true := h
    rw [Bool.and_eq_true] at h'
    exact LawfulBEq.eq_of_beq h'.1
  · rfl

lemma portFact_shaped (p q : Nat) (f : Fact) (a : Shape) (v : Option Tensor) :
    portFact q f (shaped p a v) = if p = q then Fact.known a v else f := by
  rcases v with _ | t <;> by_cases h : p = q <;>
    simp [shaped, Fact.known, Write.tells, Fact.told, h]

/-- What is known of an output of which only the rank is known. -/
def Fact.ofRank : Option Nat → Fact
  | some rank => .ofShape (Rules.unknownShape rank)
  | none => .unknown

lemma portFact_ranked (q : Nat) (f : Fact) (r : Option Nat) :
    portFact q f (Rules.ranked r) = if 0 = q then Fact.ofRank r else f := by
  rcases r with _ | r <;> by_cases h : 0 = q <;>
    simp [Rules.ranked, Fact.ofRank, Write.tells, Fact.told, h]

/-- Writes to inputs and attributes say nothing of the outputs. -/
lemma portFact_of_silent {p : Nat} {f : Fact} {ws : List Write} (h : ∀ w ∈ ws, w.tells p = none) :
    portFact p f ws = f := by
  induction ws with
  | nil => rfl
  | cons w ws ih =>
    rw [portFact_cons, h w (List.mem_cons_self ..)]
    exact ih fun x hx => h x (List.mem_cons_of_mem w hx)

lemma portFact_unknowns (p : Nat) (f : Fact) (ports : List Nat) :
    portFact p f (ports.map .outputUnknown) = if p ∈ ports then .unknown else f := by
  induction ports generalizing f with
  | nil => rfl
  | cons q ports ih =>
    rw [List.map_cons, portFact_cons, ih]
    by_cases hp : p ∈ ports
    · simp [hp]
    · by_cases hq : q = p
      · subst hq
        simp [Write.tells, Fact.told]
      · simp [Write.tells, Fact.told, hp, hq, Ne.symm hq]

lemma silent_axesWrites {shared : Except Error Bool} {axes : Tensor} {l : List Int}
    {ws : List Write} (h : Rules.axesWrites shared axes l = .ok ws) (p : Nat) :
    ∀ w ∈ ws, w.tells p = none := by
  unfold Rules.axesWrites at h
  split at h
  · cases h
    simp
  · obtain ⟨b, -, h⟩ := bind_eq_ok.1 h
    split at h
    · cases h
      simp
    · obtain ⟨g, -, h⟩ := bind_eq_ok.1 h
      cases h
      simp [Write.tells]

lemma silent_scaleWrites {scale : Option Attribute} {ws : List Write}
    (h : Rules.scaleWrites scale = .ok ws) (p : Nat) : ∀ w ∈ ws, w.tells p = none := by
  unfold Rules.scaleWrites at h
  split at h
  · obtain ⟨texts, -, rfl⟩ := map_eq_ok.1 h
    simp [Write.tells]
  · cases h
    simp

/-! ### Values with their shapes -/

lemma Fact.Shaped.update {f new : Fact} (hf : f.Shaped) (hn : new.Shaped) :
    (f.update new).Shaped := by
  unfold Fact.update
  split
  · exact hf
  · exact hn

/-- What is written to an output has its shape. -/
lemma Fact.Shaped.written {f : Fact} (hf : f.Shaped) (p : Nat) (ws : List Write) :
    (portFact p f ws).Shaped := by
  induction ws generalizing f with
  | nil => exact hf
  | cons w ws ih =>
    have hnew : ∀ new, w.tells p = some new → new.Shaped := by
      intro new hw
      unfold Write.tells at hw
      split at hw
      · exact Option.some.inj (Option.ite_none_right_eq_some.1 hw).2 ▸ Fact.shaped_ofShape _
      · exact Option.some.inj (Option.ite_none_right_eq_some.1 hw).2 ▸ Fact.shaped_ofValue _
      · exact Option.some.inj (Option.ite_none_right_eq_some.1 hw).2 ▸ Fact.shaped_unknown
      · cases hw
    rw [portFact_cons]
    refine ih ?_
    rcases hw : w.tells p with _ | new
    · exact hf
    · exact hf.update (hnew new hw)

/-- The values of the inputs have their shapes. -/
def Scene.Shaped (s : Scene) : Prop := ∀ ⦃p : Nat⦄ ⦃f : Fact⦄, s.inputFact p = .ok f → f.Shaped

lemma Scene.inputShape_eq_ok {s : Scene} {p : Nat} {a : Shape} :
    s.inputShape p = .ok a ↔ ∃ f, s.inputFact p = .ok f ∧ f.shape = some a := by
  unfold Scene.inputShape
  rw [bind_eq_ok]
  refine exists_congr fun f => and_congr_right fun _ => ?_
  rcases f.shape with _ | b
  · simp
  · show Except.ok b = .ok a ↔ _
    simp

lemma Scene.inputValue_eq_ok {s : Scene} {p : Nat} {v : Option Tensor} :
    s.inputValue p = .ok v ↔ ∃ f, s.inputFact p = .ok f ∧ f.value = v := by
  unfold Scene.inputValue
  rw [bind_eq_ok]
  refine exists_congr fun f => and_congr_right fun _ => ?_
  show Except.ok f.value = .ok v ↔ _
  simp

lemma Scene.Shaped.value {s : Scene} (hs : s.Shaped) {p : Nat} {t : Tensor}
    (hv : s.inputValue p = .ok (some t)) : s.inputShape p = .ok t.dims := by
  obtain ⟨f, hf, hft⟩ := Scene.inputValue_eq_ok.1 hv
  exact Scene.inputShape_eq_ok.2 ⟨f, hf, hs hf t hft⟩

lemma Scene.Shaped.dims {s : Scene} (hs : s.Shaped) {p : Nat} {t : Tensor} {a : Shape}
    (hv : s.inputValue p = .ok (some t)) (ha : s.inputShape p = .ok a) : a = t.dims :=
  Except.ok.inj (ha.symm.trans (hs.value hv))

variable {s : Scene} {ws ws' : List Write}

/-- What the writes of a rule give to inputs has the shapes of these. -/
def Safe (s : Scene) (ws : List Write) : Prop :=
  ∀ ⦃p : Nat⦄ ⦃t : Tensor⦄ ⦃f : Fact⦄, .inputValue p t ∈ ws → s.inputFact p = .ok f →
    f.shape = some t.dims

lemma Safe.append (h : Safe s ws) (h' : Safe s ws') : Safe s (ws ++ ws') :=
  fun _ _ _ hw hf => (List.mem_append.1 hw).elim (h · hf) (h' · hf)

lemma safe_of_forall (h : ∀ p t, .inputValue p t ∉ ws) : Safe s ws :=
  fun p t _ hw _ => absurd hw (h p t)

lemma safe_shaped (p : Nat) (a : Shape) (v : Option Tensor) : Safe s (shaped p a v) :=
  safe_of_forall (by cases v <;> simp [shaped])

lemma safe_ranked (r : Option Nat) : Safe s (Rules.ranked r) :=
  safe_of_forall (by cases r <;> simp [Rules.ranked])

lemma safe_unknowns (ports : List Nat) : Safe s (ports.map .outputUnknown) :=
  safe_of_forall (by simp)

/-- What is known on an input port after safe writes is shaped and has the shape it had. -/
lemma Safe.inFact (h : Safe s ws) {p : Nat} {f : Fact} (hp : s.inputFact p = .ok f)
    (hf : f.Shaped) : (inFact p f ws).Shaped ∧ (inFact p f ws).shape = f.shape := by
  have hall : ∀ w ∈ ws, ∀ t, w = .inputValue p t → f.shape = some t.dims := by
    rintro w hw t rfl
    exact h hw hp
  clear h
  -- the fact changes on the way, its shape does not
  suffices hgen : ∀ f' : Fact, f'.Shaped → f'.shape = f.shape →
      (TensorGraph.inFact p f' ws).Shaped ∧ (TensorGraph.inFact p f' ws).shape = f.shape from
    hgen f hf rfl
  induction ws with
  | nil => exact fun f' hf' hshape => ⟨hf', hshape⟩
  | cons w ws ih =>
    intro f' hf' hshape
    have hrest := ih fun x hx => hall x (List.mem_cons_of_mem w hx)
    have hw := hall w (List.mem_cons_self ..)
    show (TensorGraph.inFact p (f'.told (w.puts p)) ws).Shaped ∧
      (TensorGraph.inFact p (f'.told (w.puts p)) ws).shape = f.shape
    rcases hput : w.puts p with _ | g
    · exact hrest f' hf' hshape
    · obtain ⟨t, rfl, rfl⟩ : ∃ t, w = .inputValue p t ∧ g = .ofValue t := by
        cases w with
        | inputValue q value =>
          simp only [Write.puts] at hput
          split at hput
          · next hq =>
            cases hput
            exact ⟨value, by rw [hq], rfl⟩
          · cases hput
        | _ => cases hput
      refine hrest _ (hf'.update (Fact.shaped_ofValue t)) ?_
      show (f'.update (.ofValue t)).shape = _
      rw [Fact.shape_update, hw t rfl]

/-- An input of an operation, in its scene. -/
lemma inputFact_of_edge {g : Graph} (hg : g.WellFormed) {e : Edge} (he : e ∈ g.edges)
    {o : Operation} (ho : g.op? e.dst = some o) (name : String) (attributes : Attributes) {f : Fact}
    (hf : g.fact? e.src = some f) : (g.scene e.dst name attributes).inputFact e.inp = .ok f := by
  rw [Graph.scene_inputFact ho, Graph.inSource_of_edge hg he]
  exact Graph.fact_eq_ok.2 hf

/-- Taking up safe writes keeps what is known shaped, and the shapes of what is not written to. -/
lemma Safe.settle {g : Graph} {op : NodeId} {o : Operation} {name : String}
    {attributes : Attributes} (hg : g.WellFormed) (ho : g.op? op = some o) (ha : g.Apart op)
    (h : Safe (g.scene op name attributes) ws)
    (hshaped : ∀ {d : NodeId} {f : Fact}, g.fact? d = some f → f.Shaped) {d : NodeId} {f : Fact}
    (hf : (g.settle op ws).fact? d = some f) :
    f.Shaped ∧ ((∀ e ∈ g.edges, e.src = op → e.dst ≠ d) →
      ∃ f₀, g.fact? d = some f₀ ∧ f.shape = f₀.shape) := by
  by_cases hout : ∃ e ∈ g.edges, e.src = op ∧ e.dst = d
  · obtain ⟨e, he, hsrc, rfl⟩ := hout
    rw [Graph.fact?_settle_out hg ho ha he hsrc] at hf
    obtain ⟨f₀, hf₀, rfl⟩ := Option.map_eq_some_iff.1 hf
    exact ⟨(hshaped hf₀).written _ ws, fun hd => absurd rfl (hd e he hsrc)⟩
  by_cases hin : ∃ e ∈ g.edges, e.dst = op ∧ e.src = d
  · obtain ⟨e, he, rfl, rfl⟩ := hin
    rw [Graph.fact?_settle_in hg ho ha he rfl] at hf
    split at hf
    · obtain ⟨f₀, hf₀, rfl⟩ := Option.map_eq_some_iff.1 hf
      obtain ⟨hs, hshape⟩ :=
        h.inFact (inputFact_of_edge hg he ho name attributes hf₀) (hshaped hf₀)
      exact ⟨hs, fun _ => ⟨f₀, hf₀, hshape⟩⟩
    · exact ⟨hshaped hf, fun _ => ⟨f, hf, rfl⟩⟩
  · rw [Graph.fact?_settle_of_forall hg ho (fun e he hsrc hdst => hout ⟨e, he, hsrc, hdst⟩)
      fun e he hdst hsrc => hin ⟨e, he, hdst, hsrc⟩] at hf
    exact ⟨hshaped hf, fun _ => ⟨f, hf, rfl⟩⟩

/-! ### Folded values -/

/-- A folded value has the shape that is said before it. -/
def Folds (a : Shape) (v : Option Tensor) : Prop := ∀ t, v = some t → t.dims = a

lemma Folds.shape {a : Shape} {v : Option Tensor} (h : Folds a v) :
    (Fact.known a v).shape = some a := by
  rcases v with _ | t
  · rfl
  · exact congrArg some (h t rfl)

lemma folds_none (a : Shape) : Folds a none := fun _ h => by cases h

/-- A value of a shape that was worked out. -/
lemma dims_of_sizes {a : Shape} {v : Tensor} (ha : a.Valid) (hb : a.Bounded)
    (h : v.shape = a.toSizes) : v.dims = a := by
  unfold Tensor.dims
  rw [h]
  exact Shape.ofNat_toSizes ha hb (h ▸ v.fits)

namespace Rules

lemma matrixSize_eq_ok {a : Shape} {rows columns : Int} :
    matrixSize a = .ok (rows, columns) ↔ a = [rows, columns] := by
  rcases a with _ | ⟨m, _ | ⟨n, _ | ⟨k, l⟩⟩⟩ <;> simp [matrixSize, pure, Except.pure]

lemma vectorSize_eq_ok {a : Shape} {n : Int} : vectorSize a = .ok n ↔ a = [n] := by
  rcases a with _ | ⟨m, _ | ⟨k, l⟩⟩ <;> simp [vectorSize, pure, Except.pure]

variable (hs : s.Shaped) {a b shape : Shape} {x y v : Option Tensor}

include hs

lemma bounded_of_value {p : Nat} {t : Tensor} (ht : s.inputValue p = .ok (some t))
    (ha : s.inputShape p = .ok a) : a.Bounded := by
  rw [hs.dims ht ha]
  exact t.bounded_dims

lemma folds_unary (f : Elementwise.Unary) (ha : s.inputShape 0 = .ok a)
    (hx : s.inputValue 0 = .ok x) : Folds a (x.bind (·.foldUnary f)) := by
  intro t ht
  obtain ⟨x, rfl, hf⟩ := Option.bind_eq_some_iff.1 ht
  rw [hs.dims hx ha]
  exact congrArg (List.map Int.ofNat) (Tensor.shape_foldUnary hf)

lemma folds_identity (ha : s.inputShape 0 = .ok a) (hx : s.inputValue 0 = .ok x) : Folds a x := by
  rintro t rfl
  exact (hs.dims hx ha).symm

lemma folds_convert (type : ElementType) (ha : s.inputShape 0 = .ok a)
    (hx : s.inputValue 0 = .ok x) : Folds a (x.map (·.cast type)) := by
  intro t ht
  obtain ⟨x, rfl, rfl⟩ := Option.map_eq_some_iff.1 ht
  rw [hs.dims hx ha]
  exact congrArg (List.map Int.ofNat) (Tensor.shape_cast x type)

lemma folds_binary {f : Elementwise.Binary} (ha : s.inputShape 0 = .ok a)
    (hb : s.inputShape 1 = .ok b) (hshape : Shape.broadcast [a, b] = .ok shape)
    (hvalid : shape.Valid) (hx : s.inputValue 0 = .ok x) (hy : s.inputValue 1 = .ok y)
    (hv : foldBoth f shape x y = .ok v) : Folds shape v := by
  rintro t rfl
  rcases x with _ | x
  · cases hv
  rcases y with _ | y
  · cases hv
  refine dims_of_sizes hvalid (Shape.broadcast_of Shape.bounded_one ?_ hshape)
    (Tensor.shape_foldBinary hv)
  simp only [List.mem_cons, List.not_mem_nil, or_false, forall_eq_or_imp, forall_eq]
  exact ⟨bounded_of_value hs hx ha, bounded_of_value hs hy hb⟩

lemma folds_gather {axis : Nat} (hb : s.inputShape 1 = .ok b) (hy : s.inputValue 1 = .ok y)
    (hv : bothValues (·.gather · axis) x y = .ok v) : Folds b v := by
  rintro t rfl
  rcases x with _ | x
  · cases hv
  rcases y with _ | y
  · cases hv
  obtain ⟨t', ht, heq⟩ := map_eq_ok.1 hv
  cases heq
  rw [hs.dims hy hb]
  exact congrArg (List.map Int.ofNat) (Tensor.shape_gather ht)

lemma folds_product {tA tB : Bool} (ha : s.inputShape 0 = .ok a) (hb : s.inputShape 1 = .ok b)
    (hshape : Shape.product a b tA tB = .ok shape) (hvalid : shape.Valid)
    (hx : s.inputValue 0 = .ok x) (hy : s.inputValue 1 = .ok y)
    (hv : bothValues (·.product · tA tB) x y = .ok v) : Folds shape v := by
  rintro t rfl
  rcases x with _ | x
  · cases hv
  rcases y with _ | y
  · cases hv
  obtain ⟨t', ht, heq⟩ := map_eq_ok.1 hv
  cases heq
  obtain ⟨shape', hshape', hsizes⟩ := Tensor.shape_product ht
  rw [← hs.dims hx ha, ← hs.dims hy hb, hshape, Except.ok.injEq] at hshape'
  subst hshape'
  exact dims_of_sizes hvalid (Shape.product_of Shape.bounded_one (bounded_of_value hs hx ha)
    (bounded_of_value hs hy hb) hshape) hsizes

/-- A value in a new shape, which is bounded when the input is. -/
lemma folds_reshaped (ha : s.inputShape 0 = .ok a) (hx : s.inputValue 0 = .ok x)
    (hvalid : shape.Valid) (hb : a.Bounded → shape.Bounded)
    (hv : reshapedValue shape x = .ok v) : Folds shape v := by
  rintro t rfl
  rcases x with _ | x
  · cases hv
  · obtain ⟨t', ht, heq⟩ := map_eq_ok.1 hv
    cases heq
    exact dims_of_sizes hvalid (hb (bounded_of_value hs hx ha)) (Tensor.shape_reshape ht)

lemma folds_sparse {rows columns rank : Int} {input new : Tensor} {output : Shape}
    (ha : s.inputShape 0 = .ok a) (hsize : matrixSize a = .ok (rows, columns))
    (hb : s.inputShape 2 = .ok b) (hrank : vectorSize b = .ok rank)
    (hnew : s.inputValue 2 = .ok (some new))
    (houtput : Shape.sparseReshape input.toInts new.toInts = .ok output)
    (hx : s.inputValue 0 = .ok x) (hv : sparseValue x input.toInts output = .ok v) :
    Folds [rows, rank] v := by
  rintro t rfl
  rcases x with _ | x
  · cases hv
  unfold sparseValue at hv
  simp only at hv
  split at hv
  · obtain ⟨t', ht, heq⟩ := map_eq_ok.1 hv
    cases heq
    -- rows are those of the index matrix, columns those of the new shape
    have hrows : ((x.shape.headD 0 : Nat) : Int) = rows := by
      have hdims := (hs.dims hx ha).symm.trans (matrixSize_eq_ok.1 hsize)
      obtain ⟨m, _, hm, rfl, -⟩ := List.map_eq_cons_iff.1 hdims
      rw [hm]
      rfl
    have hlen : ((output.length : Nat) : Int) = rank := by
      have hdims := (hs.dims hnew hb).symm.trans (vectorSize_eq_ok.1 hrank)
      obtain ⟨n, hn, rfl⟩ := List.map_eq_singleton_iff.1 hdims
      rw [Shape.length_sparseReshape houtput, Tensor.length_toInts, hn, Grid.count_cons,
        Grid.count_nil, Nat.mul_one]
      rfl
    unfold Tensor.dims
    rw [SparseIndices.shape_reshape ht]
    simp only [List.map_cons, List.map_nil]
    rw [← hrows, ← hlen]
    rfl
  · cases hv

end Rules

end TensorGraph
