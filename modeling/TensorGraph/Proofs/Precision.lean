import TensorGraph.Proofs.StandardRules

/-!
Rules on scenes that know less.

`Scene.Coarser s s'` says that the scenes differ in what is known of the inputs only, and that `s`
knows less. A standard rule that succeeds in `s'` succeeds in `s`, and what it says there of the
outputs is coarser than what it says in `s'` (`StandardRule.coarser`).
-/

namespace TensorGraph

open RuleM Rules

/-! ### Facts and scenes that know less -/

/-- The shape that is known is coarser, and a value that is known is the same. -/
structure Fact.Coarser (f f' : Fact) : Prop where
  shape : ∀ a, f.shape = some a → ∃ a', f'.shape = some a' ∧ a.Coarser a'
  value : ∀ t, f.value = some t → f'.value = some t

lemma Fact.Coarser.refl (f : Fact) : f.Coarser f :=
  ⟨fun a ha => ⟨a, ha, .refl a⟩, fun _ ht => ht⟩

lemma Fact.coarser_unknown (f : Fact) : Fact.unknown.Coarser f :=
  ⟨fun _ ha => (nomatch ha), fun _ ht => (nomatch ht)⟩

lemma Fact.coarser_ofShape {a a' : Shape} {f : Fact} (hf : f.shape = some a')
    (h : a.Coarser a') : (Fact.ofShape a).Coarser f := by
  refine ⟨fun b hb => ?_, fun t ht => by cases ht⟩
  cases hb
  exact ⟨a', hf, h⟩

lemma Fact.coarser_known {a a' : Shape} {v v' : Option Tensor} (h : a.Coarser a')
    (hf : Folds a v) (hf' : Folds a' v') (hv : ∀ t, v = some t → v' = some t) :
    (Fact.known a v).Coarser (Fact.known a' v') := by
  refine ⟨fun b hb => ?_, fun t ht => ?_⟩
  · rw [hf.shape, Option.some.injEq] at hb
    exact ⟨a', hf'.shape, hb ▸ h⟩
  · rcases v with _ | w
    · cases ht
    · rw [hv w rfl]
      exact ht

lemma portFact_shaped_coarser {p q : Nat} {a a' : Shape} {v v' : Option Tensor}
    (h : a.Coarser a') (hf : Folds a v) (hf' : Folds a' v') (hv : ∀ t, v = some t → v' = some t)
    (f : Fact) : (portFact q f (shaped p a v)).Coarser (portFact q f (shaped p a' v')) := by
  rw [portFact_shaped, portFact_shaped]
  split
  · exact Fact.coarser_known h hf hf' hv
  · exact .refl f

/-- A rank that is known is that of what is known more of. -/
lemma portFact_ranked_coarser {q : Nat} {r : Option Nat} {a' : Shape} {v' : Option Tensor}
    (hr : ∀ n, r = some n → n = a'.length) (hf' : Folds a' v') (f : Fact) :
    (portFact q f (ranked r)).Coarser (portFact q f (shaped 0 a' v')) := by
  rw [portFact_ranked, portFact_shaped]
  split
  · rcases r with _ | n
    · exact Fact.coarser_unknown _
    · rw [hr n rfl]
      exact Fact.coarser_ofShape hf'.shape (Shape.coarser_replicate a')
  · exact .refl f

/-- The scenes differ in what is known of the inputs, and the first one knows less, but the shapes
of all connected inputs. -/
structure Scene.Coarser (s s' : Scene) : Prop where
  attributes : s.attributes = s'.attributes
  outputPorts : s.outputPorts = s'.outputPorts
  inputIsShared : s.inputIsShared = s'.inputIsShared
  input : ∀ {p : Nat} {f' : Fact}, s'.inputFact p = .ok f' →
    ∃ f, s.inputFact p = .ok f ∧ f.Coarser f' ∧ f.shape.isSome

namespace Scene.Coarser

variable {s s' : Scene} (h : s.Coarser s')

include h

lemma attr? (name : String) : s.attr? name = s'.attr? name := by
  unfold Scene.attr?
  rw [h.attributes]

lemma attr (name : String) : s.attr name = s'.attr name := by
  unfold Scene.attr
  rw [h.attr?]

lemma typed {α : Type} (name : String) (kind : AttributeKind) (read : Attribute → Option α) :
    s.typed name kind read = s'.typed name kind read := by
  unfold Scene.typed
  rw [h.attr]

lemma inputShape {p : Nat} {a' : Shape} (ha : s'.inputShape p = .ok a') :
    ∃ a, s.inputShape p = .ok a ∧ a.Coarser a' := by
  obtain ⟨f', hf', ha'⟩ := inputShape_eq_ok.1 ha
  obtain ⟨f, hf, hcoarser, hknown⟩ := h.input hf'
  obtain ⟨a, ha⟩ := Option.isSome_iff_exists.1 hknown
  obtain ⟨b, hb, hab⟩ := hcoarser.shape a ha
  rw [ha', Option.some.injEq] at hb
  exact ⟨a, inputShape_eq_ok.2 ⟨f, hf, ha⟩, hb ▸ hab⟩

lemma inputValue {p : Nat} {v' : Option Tensor} (hv : s'.inputValue p = .ok v') :
    ∃ v, s.inputValue p = .ok v ∧ ∀ t, v = some t → v' = some t := by
  obtain ⟨f', hf', rfl⟩ := inputValue_eq_ok.1 hv
  obtain ⟨f, hf, hcoarser, -⟩ := h.input hf'
  exact ⟨f.value, inputValue_eq_ok.2 ⟨f, hf, rfl⟩, hcoarser.value⟩

end Scene.Coarser

/-- A value folded of two that are the same, or fewer. -/
lemma bothValues_coarser {F : Tensor → Tensor → Except Error Tensor} {x x' y y' v' : Option Tensor}
    (hx : ∀ t, x = some t → x' = some t) (hy : ∀ t, y = some t → y' = some t)
    (hv : bothValues F x' y' = .ok v') :
    ∃ v, bothValues F x y = .ok v ∧ ∀ t, v = some t → v' = some t := by
  rcases x with _ | x
  · exact ⟨none, rfl, fun t ht => by cases ht⟩
  · rcases y with _ | y
    · exact ⟨none, rfl, fun t ht => by cases ht⟩
    · rw [hx x rfl, hy y rfl] at hv
      exact ⟨v', hv, fun _ ht => ht⟩

/-- A value in a new shape, of one that is the same or not known. -/
lemma reshapedValue_coarser {shape shape' : Shape} {x x' v' : Option Tensor}
    (hx : ∀ t, x = some t → x' = some t) (hshape : ∀ t, x = some t → shape = shape')
    (hv : reshapedValue shape' x' = .ok v') :
    ∃ v, reshapedValue shape x = .ok v ∧ ∀ t, v = some t → v' = some t := by
  rcases x with _ | x
  · exact ⟨none, rfl, fun t ht => by cases ht⟩
  · rw [hx x rfl] at hv
    rw [hshape x rfl]
    exact ⟨v', hv, fun _ ht => ht⟩

/-! ### Rules that know less -/

/-- The shapes of an input that has a value are the same. -/
lemma dims_eq {s s' : Scene} (hs : s.Shaped) (hs' : s'.Shaped) {p : Nat} {a a' : Shape}
    {x' : Option Tensor} {t : Tensor} (ha : s.inputShape p = .ok a) (ha' : s'.inputShape p = .ok a')
    (hx : s.inputValue p = .ok (some t)) (hx' : s'.inputValue p = .ok x')
    (hxx : ∀ t', some t = some t' → x' = some t') : a = a' := by
  rw [hxx t rfl] at hx'
  rw [hs.dims hx ha, hs'.dims hx' ha']

lemma folds_unsqueeze {s : Scene} (hs : s.Shaped) {a shape : Shape} {axes : List Int}
    {normalized : List Nat} {x v : Option Tensor} (ha : s.inputShape 0 = .ok a)
    (hshape : Shape.unsqueeze a axes = .ok (shape, normalized)) (hvalid : shape.Valid)
    (hx : s.inputValue 0 = .ok x) (hv : reshapedValue shape x = .ok v) : Folds shape v := by
  refine folds_reshaped hs ha hx hvalid (fun hb => ?_) hv
  rw [(Shape.unsqueeze_eq_ok.1 hshape).2.2]
  exact Shape.foldl_insertIdx_of _ Shape.bounded_one hb

/-- What a sparse reshape with known shapes says of its two outputs. -/
lemma portFact_sparseWrites {rows rank : Int} {output : Shape} {v : Option Tensor} (q : Nat)
    (f : Fact) : portFact q f (sparseWrites rows rank output v) =
      if q = 0 then Fact.known [rows, rank] v
      else if q = 1 then f.update (.ofValue (.ofInts output)) else f := by
  rcases q with _ | _ | q <;> rcases v with _ | t <;>
    simp [sparseWrites, Fact.known, Write.tells, Fact.told]

/-- What a sparse reshape says of its two outputs otherwise. -/
lemma portFact_sparseShapes {rows rank : Int} (q : Nat) (f : Fact) :
    portFact q f [.outputShape 0 [rows, rank], .outputShape 1 [rank]] =
      if q = 0 then .ofShape [rows, rank] else if q = 1 then .ofShape [rank] else f := by
  rcases q with _ | _ | q <;> simp [Write.tells, Fact.told]

lemma coarser_proposals {s s' : Scene} (h : s.Coarser s') {u : Unit} {ws' : List Write}
    (hev : proposals.eval s' = .ok (u, ws')) :
    proposals.eval s = .ok (u, ws') := by
  obtain ⟨stride, wsScale, hstride, hscale, hrest⟩ := eval_proposals.1 hev
  refine eval_proposals.2 ⟨stride, wsScale, (h.typed ..).trans hstride, h.attr? _ ▸ hscale, ?_⟩
  split at hrest
  · obtain ⟨n, hn, hws⟩ := hrest
    rw [if_pos ‹_›]
    exact ⟨n, (h.typed ..).trans hn, hws⟩
  · rw [if_neg ‹_›, h.outputPorts]
    exact hrest

section

variable {s s' : Scene} (h : s.Coarser s') (hs : s.Shaped) (hs' : s'.Shaped) {u : Unit}
  {ws' : List Write}

include h hs hs'

lemma coarser_reshape (hev : reshape.eval s' = .ok (u, ws')) :
    ∃ ws, reshape.eval s = .ok (u, ws) ∧
      ∀ p f, (portFact p f ws).Coarser (portFact p f ws') := by
  obtain ⟨zero, a', pattern'?, hzero, ha', hpattern', hrest⟩ := eval_reshape.1 hev
  obtain ⟨a, ha, haa⟩ := h.inputShape ha'
  obtain ⟨pattern?, hpattern, hpp⟩ := h.inputValue hpattern'
  have hzero' : s.bool "special_zero" = .ok zero := (h.typed ..).trans hzero
  rcases pattern? with _ | pattern
  · -- the pattern is not known
    rcases pattern'? with _ | pattern'
    · obtain ⟨b', hb', rfl⟩ := hrest
      obtain ⟨b, hb, hbb⟩ := h.inputShape hb'
      refine ⟨_, eval_reshape.2 ⟨zero, a, none, hzero', ha, hpattern, b, hb, rfl⟩, fun p f => ?_⟩
      rw [portFact_ranked, portFact_ranked]
      split
      · rcases hr : patternRank b with _ | n
        · exact Fact.coarser_unknown _
        · -- a rank that is told is told by the other shape too
          unfold patternRank at hr
          split at hr
          · next rank =>
            split at hr
            · next hpos =>
              obtain rfl := hbb.eq_of_known (by simpa [Shape.hasUnknown] using hpos)
              cases hr
              rw [patternRank, if_pos hpos]
              exact .refl _
            · cases hr
          · cases hr
      · exact .refl f
    · obtain ⟨shape', x', v', hshape', hvalid', hx', hv', rfl⟩ := hrest
      obtain ⟨b', hb'⟩ : ∃ b', s'.inputShape 1 = .ok b' := ⟨_, hs'.value hpattern'⟩
      obtain ⟨b, hb, hbb⟩ := h.inputShape hb'
      have hfolds : Folds shape' v' := folds_reshaped hs' ha' hx' hvalid'
        (fun hb => Shape.reshape_bounded hb pattern'.toInts_bounded hshape') hv'
      refine ⟨_, eval_reshape.2 ⟨zero, a, none, hzero', ha, hpattern, b, hb, rfl⟩, fun p f => ?_⟩
      refine portFact_ranked_coarser (fun n hn => ?_) hfolds f
      -- the pattern is a vector as long as the rank
      rw [hs'.dims hpattern' hb'] at hbb
      unfold patternRank at hn
      split at hn
      · next rank =>
        split at hn
        · next hpos =>
          have hdims := hbb.eq_of_known (by simpa [Shape.hasUnknown] using hpos)
          cases hn
          obtain ⟨n, hn, rfl⟩ := List.map_eq_singleton_iff.1 hdims.symm
          rw [Shape.length_reshape hshape', Tensor.length_toInts, hn, Grid.count_cons,
            Grid.count_nil, Nat.mul_one]
          rfl
        · cases hn
      · cases hn
  · -- the pattern is known, and the same
    rw [hpp pattern rfl] at hpattern' hrest
    obtain ⟨shape', x', v', hshape', hvalid', hx', hv', rfl⟩ := hrest
    obtain ⟨shape, hshape, hcoarser⟩ := Shape.reshape_coarser haa hshape'
    obtain ⟨x, hx, hxx⟩ := h.inputValue hx'
    have heq : ∀ t, x = some t → shape = shape' := by
      rintro t rfl
      obtain rfl := dims_eq hs hs' ha ha' hx hx' hxx
      exact Except.ok.inj (hshape.symm.trans hshape')
    obtain ⟨v, hv, hvv⟩ := reshapedValue_coarser hxx heq hv'
    have hvalid : shape.Valid := hcoarser.valid hvalid'
    refine ⟨_, eval_reshape.2 ⟨zero, a, some pattern, hzero', ha, hpattern, shape, x, v, hshape,
      hvalid, hx, hv, rfl⟩, fun p f => portFact_shaped_coarser hcoarser ?_ ?_ hvv f⟩
    · exact folds_reshaped hs ha hx hvalid
        (fun hb => Shape.reshape_bounded hb pattern.toInts_bounded hshape) hv
    · exact folds_reshaped hs' ha' hx' hvalid'
        (fun hb => Shape.reshape_bounded hb pattern.toInts_bounded hshape') hv'

lemma coarser_unsqueeze (hev : unsqueeze.eval s' = .ok (u, ws')) :
    ∃ ws, unsqueeze.eval s = .ok (u, ws) ∧
      ∀ p f, (portFact p f ws).Coarser (portFact p f ws') := by
  obtain ⟨a', axes'?, ha', haxes', hrest⟩ := eval_unsqueeze.1 hev
  obtain ⟨a, ha, haa⟩ := h.inputShape ha'
  obtain ⟨axes?, haxes, hxx⟩ := h.inputValue haxes'
  rcases axes? with _ | axes
  · rcases axes'? with _ | axes'
    · -- the axes are known in neither scene
      obtain ⟨b', r', hb', hr', rfl⟩ := hrest
      obtain ⟨b, hb, hbb⟩ := h.inputShape hb'
      rcases hunknown : b.hasUnknown with _ | _
      · obtain rfl := hbb.eq_of_known hunknown
        rw [← haa.length] at hr'
        exact ⟨_, eval_unsqueeze.2 ⟨a, none, ha, haxes, b, r', hb, hr', rfl⟩, fun p f => .refl _⟩
      · refine ⟨ranked none, eval_unsqueeze.2 ⟨a, none, ha, haxes, b, none, hb, ?_, rfl⟩,
          fun p f => ?_⟩
        · rw [axesRank, if_pos hunknown]
        · rw [portFact_ranked, portFact_ranked]
          split
          · exact Fact.coarser_unknown _
          · exact .refl f
    · -- only the shape of the axes is known
      obtain ⟨shape', normalized, wsAxes, x', v', hshape', hwrites, hvalid', hx', hv', rfl⟩ := hrest
      have hfolds := folds_unsqueeze hs' ha' hshape' hvalid' hx' hv'
      obtain ⟨b, hb, hbb⟩ := h.inputShape (hs'.value haxes')
      obtain ⟨r, hr, hlen⟩ : ∃ r, axesRank a.length b = .ok r ∧
          ∀ n, r = some n → n = shape'.length := by
        rcases hunknown : b.hasUnknown with _ | _
        · obtain rfl := hbb.eq_of_known hunknown
          refine ⟨some (a.length + Grid.count axes'.shape), ?_, ?_⟩
          · rw [axesRank, if_neg (by simp [hunknown]), Shape.volume_dims axes']
            rfl
          · intro n hn
            rw [← Option.some.inj hn, Shape.length_unsqueeze hshape', Tensor.length_toInts,
              haa.length]
        · exact ⟨none, by rw [axesRank, if_pos hunknown], fun n hn => by cases hn⟩
      refine ⟨_, eval_unsqueeze.2 ⟨a, none, ha, haxes, b, r, hb, hr, rfl⟩, fun p f => ?_⟩
      rw [portFact_append, portFact_of_silent (silent_axesWrites hwrites p)]
      exact portFact_ranked_coarser hlen hfolds f
  · -- the axes are known, and the same
    rw [hxx axes rfl] at haxes' hrest
    obtain ⟨shape', normalized, wsAxes, x', v', hshape', hwrites, hvalid', hx', hv', rfl⟩ := hrest
    obtain ⟨shape, hshape, hcoarser⟩ := Shape.unsqueeze_coarser haa hshape'
    obtain ⟨x, hx, hxx⟩ := h.inputValue hx'
    have heq : ∀ t, x = some t → shape = shape' := by
      rintro t rfl
      obtain rfl := dims_eq hs hs' ha ha' hx hx' hxx
      exact congrArg Prod.fst (Except.ok.inj (hshape.symm.trans hshape'))
    obtain ⟨v, hv, hvv⟩ := reshapedValue_coarser hxx heq hv'
    have hvalid : shape.Valid := hcoarser.valid hvalid'
    have hfolds := folds_unsqueeze hs ha hshape hvalid hx hv
    have hfolds' := folds_unsqueeze hs' ha' hshape' hvalid' hx' hv'
    rw [← h.inputIsShared] at hwrites
    refine ⟨_, eval_unsqueeze.2 ⟨a, some axes, ha, haxes, shape, normalized, wsAxes, x, v, hshape,
      hwrites, hvalid, hx, hv, rfl⟩, fun p f => ?_⟩
    rw [portFact_append, portFact_append, portFact_of_silent (silent_axesWrites hwrites p)]
    exact portFact_shaped_coarser hcoarser hfolds hfolds' hvv f

lemma coarser_sparseReshape (hev : sparseReshape.eval s' = .ok (u, ws')) :
    ∃ ws, sparseReshape.eval s = .ok (u, ws) ∧
      ∀ p f, (portFact p f ws).Coarser (portFact p f ws') := by
  obtain ⟨m', rows', columns', b', rank', input'?, new'?, hm', hsize', hb', hrank', hvalid',
    hinput', hnew', hrest⟩ := eval_sparseReshape.1 hev
  obtain ⟨m, hm, hmm⟩ := h.inputShape hm'
  obtain ⟨b, hb, hbb⟩ := h.inputShape hb'
  obtain rfl := matrixSize_eq_ok.1 hsize'
  obtain rfl := vectorSize_eq_ok.1 hrank'
  obtain ⟨rows, columns, rfl, hrows, hcolumns⟩ : ∃ rows columns, m = [rows, columns] ∧
      Shape.DimCoarser rows rows' ∧ Shape.DimCoarser columns columns' := by
    rcases hmm with _ | ⟨hr, _ | ⟨hc, ⟨⟩⟩⟩
    exact ⟨_, _, rfl, hr, hc⟩
  obtain ⟨rank, rfl, hrank⟩ : ∃ rank, b = [rank] ∧ Shape.DimCoarser rank rank' := by
    rcases hbb with _ | ⟨hr, ⟨⟩⟩
    exact ⟨_, rfl, hr⟩
  have hcoarser : Shape.Coarser [rows, rank] [rows', rank'] := .cons hrows (.cons hrank .nil)
  have hvalid : Shape.Valid [rows, rank] := hcoarser.valid hvalid'
  obtain ⟨input?, hinput, hii⟩ := h.inputValue hinput'
  obtain ⟨new?, hnew, hnn⟩ := h.inputValue hnew'
  -- what is said when one of the shapes is not known
  have hunknown : ∀ p f, (portFact p f
      [.outputShape 0 [rows, rank], .outputShape 1 [rank]]).Coarser (portFact p f ws') := by
    intro p f
    have htold : ∀ {g : Fact}, g.shape = some [rank'] → (Fact.ofShape [rank]).Coarser g :=
      fun hg => Fact.coarser_ofShape hg (.cons hrank .nil)
    have hshapes : Shape.Valid [rank'] ∧
          ws' = [.outputShape 0 [rows', rank'], .outputShape 1 [rank']] →
        (portFact p f [.outputShape 0 [rows, rank], .outputShape 1 [rank]]).Coarser
          (portFact p f ws') := by
      rintro ⟨-, rfl⟩
      rw [portFact_sparseShapes, portFact_sparseShapes]
      split
      · exact Fact.coarser_ofShape rfl hcoarser
      · split
        · exact htold rfl
        · exact .refl f
    rcases input'? with _ | input' <;> rcases new'? with _ | new'
    · exact hshapes hrest
    · exact hshapes hrest
    · exact hshapes hrest
    · obtain ⟨output, x', v', -, houtput, hx', hv', rfl⟩ := hrest
      rw [portFact_sparseShapes, portFact_sparseWrites]
      split
      · exact Fact.coarser_ofShape
          (folds_sparse hs' hm' hsize' hb' hrank' hnew' houtput hx' hv').shape hcoarser
      · split
        · -- the new shape is as long as the vector that holds it
          refine htold ?_
          have hlength := Shape.length_sparseReshape houtput
          rw [Fact.shape_update, Tensor.dims_ofInts (hlength ▸ new'.length_toInts_lt), hlength]
          obtain ⟨n, hn, rfl⟩ := List.map_eq_singleton_iff.1 (hs'.dims hnew' hb').symm
          rw [Tensor.length_toInts, hn, Grid.count_cons, Grid.count_nil, Nat.mul_one]
          rfl
        · exact .refl f
  have hspec := fun l hws => (@eval_sparseReshape s l u).2
    ⟨_, rows, columns, _, rank, input?, new?, hm, matrixSize_eq_ok.2 rfl, hb,
      vectorSize_eq_ok.2 rfl,
      hvalid, hinput, hnew, hws⟩
  have hvalid₁ : Shape.Valid [rank] := fun d hd => hvalid d (List.mem_cons_of_mem _ hd)
  rcases input? with _ | input
  · exact ⟨_, hspec _ ⟨hvalid₁, rfl⟩, hunknown⟩
  rcases new? with _ | new
  · exact ⟨_, hspec _ ⟨hvalid₁, rfl⟩, hunknown⟩
  -- both shapes are known, and the same
  rw [hii input rfl, hnn new rfl] at hrest
  rw [hnn new rfl] at hnew'
  obtain ⟨output, x', v', hlen, houtput, hx', hv', rfl⟩ := hrest
  obtain ⟨x, hx, hxx⟩ := h.inputValue hx'
  obtain ⟨v, hv, hvv⟩ : ∃ v, sparseValue x input.toInts output = .ok v ∧
      ∀ t, v = some t → v' = some t := by
    rcases x with _ | x
    · exact ⟨none, rfl, fun t ht => by cases ht⟩
    · rw [hxx x rfl] at hv'
      exact ⟨v', hv', fun _ ht => ht⟩
  refine ⟨_, hspec _ ⟨output, x, v, ?_, houtput, hx, hv, rfl⟩, fun p f => ?_⟩
  · unfold Shape.DimCoarser at hcolumns
    omega
  · rw [portFact_sparseWrites, portFact_sparseWrites]
    split
    · exact Fact.coarser_known hcoarser
        (folds_sparse hs hm (matrixSize_eq_ok.2 rfl) hb (vectorSize_eq_ok.2 rfl) hnew houtput hx hv)
        (folds_sparse hs' hm' hsize' hb' hrank' hnew' houtput hx' hv') hvv
    · exact .refl _

/-- A rule that passes a shape on, and a value that is made of that of input 0. -/
lemma coarser_elementwise {rule : Rule} {F : Option Tensor → Option Tensor}
    (hspec : ∀ {s : Scene} {ws : List Write}, rule.eval s = .ok (u, ws) ↔
      ∃ a v, s.inputShape 0 = .ok a ∧ a.Valid ∧ s.inputValue 0 = .ok v ∧ ws = shaped 0 a (F v))
    (hfolds : ∀ {s : Scene} {a : Shape} {v : Option Tensor}, s.Shaped → s.inputShape 0 = .ok a →
      s.inputValue 0 = .ok v → Folds a (F v))
    (hF : F none = none) (hev : rule.eval s' = .ok (u, ws')) :
    ∃ ws, rule.eval s = .ok (u, ws) ∧ ∀ p f, (portFact p f ws).Coarser (portFact p f ws') := by
  obtain ⟨a', v', ha', hvalid', hv', rfl⟩ := hspec.1 hev
  obtain ⟨a, ha, haa⟩ := h.inputShape ha'
  obtain ⟨v, hv, hvv⟩ := h.inputValue hv'
  refine ⟨_, hspec.2 ⟨a, v, ha, haa.valid hvalid', hv, rfl⟩, fun p f =>
    portFact_shaped_coarser haa (hfolds hs ha hv) (hfolds hs' ha' hv') (fun t ht => ?_) f⟩
  rcases v with _ | v
  · rw [hF] at ht
    cases ht
  · rw [hvv v rfl]
    exact ht

lemma coarser_convert (hev : convert.eval s' = .ok (u, ws')) :
    ∃ ws, convert.eval s = .ok (u, ws) ∧
      ∀ p f, (portFact p f ws).Coarser (portFact p f ws') := by
  obtain ⟨name, type, a', v', hname, htype, ha', hvalid', hv', rfl⟩ := eval_convert.1 hev
  obtain ⟨a, ha, haa⟩ := h.inputShape ha'
  obtain ⟨v, hv, hvv⟩ := h.inputValue hv'
  have hname' : s.string "destination_type" = .ok name := (h.typed ..).trans hname
  refine ⟨_, eval_convert.2 ⟨name, type, a, v, hname', htype, ha, haa.valid hvalid', hv, rfl⟩,
    fun p f => portFact_shaped_coarser haa (folds_convert hs type ha hv)
      (folds_convert hs' type ha' hv') (fun t ht => ?_) f⟩
  obtain ⟨x, rfl, rfl⟩ := Option.map_eq_some_iff.1 ht
  rw [hvv x rfl]
  rfl

lemma coarser_gather (hev : gather.eval s' = .ok (u, ws')) :
    ∃ ws, gather.eval s = .ok (u, ws) ∧ ∀ p f, (portFact p f ws).Coarser (portFact p f ws') := by
  obtain ⟨a', b', axis', axis, x', y', v', ha', hb', hlen, haxis', haxis, hcheck, hvalid', hx', hy',
    hv', rfl⟩ := eval_gather.1 hev
  obtain ⟨a, ha, haa⟩ := h.inputShape ha'
  obtain ⟨b, hb, hbb⟩ := h.inputShape hb'
  obtain ⟨x, hx, hxx⟩ := h.inputValue hx'
  obtain ⟨y, hy, hyy⟩ := h.inputValue hy'
  obtain ⟨v, hv, hvv⟩ := bothValues_coarser hxx hyy hv'
  have haxis'' : s.int "axis" = .ok axis' := (h.typed ..).trans haxis'
  rw [← haa.length] at hlen haxis
  rw [← hbb.length] at hlen
  exact ⟨_, eval_gather.2 ⟨a, b, axis', axis, x, y, v, ha, hb, hlen, haxis'', haxis,
    checkGatherAxes_coarser haa hbb hcheck, hbb.valid hvalid', hx, hy, hv, rfl⟩,
    fun p f => portFact_shaped_coarser hbb (folds_gather hs hb hy hv)
      (folds_gather hs' hb' hy' hv') hvv f⟩

lemma coarser_product (hev : product.eval s' = .ok (u, ws')) :
    ∃ ws, product.eval s = .ok (u, ws) ∧ ∀ p f, (portFact p f ws).Coarser (portFact p f ws') := by
  obtain ⟨tA, tB, a', b', shape', x', y', v', htA, htB, ha', hb', hshape', hvalid', hx', hy', hv',
    rfl⟩ := eval_product.1 hev
  obtain ⟨a, ha, haa⟩ := h.inputShape ha'
  obtain ⟨b, hb, hbb⟩ := h.inputShape hb'
  obtain ⟨x, hx, hxx⟩ := h.inputValue hx'
  obtain ⟨y, hy, hyy⟩ := h.inputValue hy'
  obtain ⟨shape, hshape, hcoarser⟩ := Shape.product_coarser haa hbb hshape'
  obtain ⟨v, hv, hvv⟩ := bothValues_coarser hxx hyy hv'
  have htA' : s.bool "transpose_a" = .ok tA := (h.typed ..).trans htA
  have htB' : s.bool "transpose_b" = .ok tB := (h.typed ..).trans htB
  have hvalid : shape.Valid := hcoarser.valid hvalid'
  exact ⟨_, eval_product.2
    ⟨tA, tB, a, b, shape, x, y, v, htA', htB', ha, hb, hshape, hvalid, hx, hy,
    hv, rfl⟩, fun p f => portFact_shaped_coarser hcoarser
      (folds_product hs ha hb hshape hvalid hx hy hv)
      (folds_product hs' ha' hb' hshape' hvalid' hx' hy' hv') hvv f⟩

lemma coarser_binary {F : Elementwise.Binary} (hev : (binary F).eval s' = .ok (u, ws')) :
    ∃ ws, (binary F).eval s = .ok (u, ws) ∧
      ∀ p f, (portFact p f ws).Coarser (portFact p f ws') := by
  obtain ⟨a', b', shape', x', y', v', ha', hb', hshape', hvalid', hx', hy', hv', rfl⟩ :=
    eval_binary.1 hev
  obtain ⟨a, ha, haa⟩ := h.inputShape ha'
  obtain ⟨b, hb, hbb⟩ := h.inputShape hb'
  obtain ⟨x, hx, hxx⟩ := h.inputValue hx'
  obtain ⟨y, hy, hyy⟩ := h.inputValue hy'
  obtain ⟨shape, hshape, hcoarser⟩ :=
    Shape.broadcast_coarser (.cons haa (.cons hbb .nil)) hshape'
  obtain ⟨v, hv, hvv⟩ : ∃ v, foldBoth F shape x y = .ok v ∧ ∀ t, v = some t → v' = some t := by
    rcases x with _ | x
    · exact ⟨none, rfl, fun t ht => by cases ht⟩
    rcases y with _ | y
    · exact ⟨none, rfl, fun t ht => by cases ht⟩
    -- both shapes are those of the values, so the results are of one shape
    obtain rfl := dims_eq hs hs' ha ha' hx hx' hxx
    obtain rfl := dims_eq hs hs' hb hb' hy hy' hyy
    obtain rfl := Except.ok.inj (hshape.symm.trans hshape')
    rw [hxx x rfl, hyy y rfl] at hv'
    exact ⟨v', hv', fun _ ht => ht⟩
  have hvalid : shape.Valid := hcoarser.valid hvalid'
  exact ⟨_, eval_binary.2 ⟨a, b, shape, x, y, v, ha, hb, hshape, hvalid, hx, hy, hv, rfl⟩,
    fun p f => portFact_shaped_coarser hcoarser (folds_binary hs ha hb hshape hvalid hx hy hv)
      (folds_binary hs' ha' hb' hshape' hvalid' hx' hy' hv') hvv f⟩

/-- **Monotonicity of the rules**: a standard rule that succeeds in a scene succeeds in one that
knows less, and what it says there of each output is coarser. -/
theorem StandardRule.coarser {kind : String} {rule : Rule} (hrule : StandardRule kind rule)
    (hev : rule.eval s' = .ok (u, ws')) :
    ∃ ws, rule.eval s = .ok (u, ws) ∧ ∀ p f, (portFact p f ws).Coarser (portFact p f ws') := by
  cases hrule with
  | parameter =>
    obtain ⟨shape, hshape, hws⟩ := eval_parameter.1 hev
    exact ⟨ws', eval_parameter.2 ⟨shape, (h.typed ..).trans hshape, hws⟩, fun _ _ => .refl _⟩
  | constant =>
    obtain ⟨t, ht, hws⟩ := eval_constant.1 hev
    exact ⟨ws', eval_constant.2 ⟨t, h.attr? _ ▸ ht, hws⟩, fun _ _ => .refl _⟩
  | output => exact ⟨ws', eval_output.2 (eval_output.1 hev), fun _ _ => .refl _⟩
  | identity =>
    refine coarser_elementwise (F := id) h hs hs' eval_identity ?_ rfl hev
    exact fun hs ha hv => folds_identity hs ha hv
  | reshape => exact coarser_reshape h hs hs' hev
  | unsqueeze => exact coarser_unsqueeze h hs hs' hev
  | gather => exact coarser_gather h hs hs' hev
  | sparseReshape => exact coarser_sparseReshape h hs hs' hev
  | product => exact coarser_product h hs hs' hev
  | convert => exact coarser_convert h hs hs' hev
  | proposals => exact ⟨ws', coarser_proposals h hev, fun _ _ => .refl _⟩
  | queue kind =>
    refine ⟨ws', eval_queue.2 ?_, fun _ _ => .refl _⟩
    rw [h.outputPorts]
    exact eval_queue.1 hev
  | unary kind f =>
    exact coarser_elementwise h hs hs' eval_unary (fun hs => folds_unary hs f) rfl hev
  | binary kind f => exact coarser_binary h hs hs' hev

end

end TensorGraph
