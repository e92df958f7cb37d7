import TensorGraph.Proofs.Statements
import TensorGraph.Proofs.Unsqueezes

/-!
Scenes in which an operation writes the same to its outputs.

What the standard rules write to outputs does not depend on who else reads the inputs, nor on how
the axes of an unsqueeze are written (`Scene.Resembles.akin`). Axes that an unsqueeze writes over
are such other axes (`Registry.rephrases_verdict`, `Fact.Counted`). The attributes that an operation
sets leave what it writes too (`akin_taken`), and so does a pattern that reshapes to the same
(`akin_pattern`).
-/

namespace TensorGraph

open RuleM Rules

variable {s s' : Scene} {u : Unit} {ws : List Write} {kind : String} {p : Nat}

/-- What an operation of a kind writes to its outputs in one scene, it writes in the other. -/
def Akin (kind : String) (s s' : Scene) : Prop :=
  ∀ ws, Registry.standard.verdict kind s = .ok ws → ∃ ws',
    Registry.standard.verdict kind s' = .ok ws' ∧ ∀ p f, portFact p f ws' = portFact p f ws

lemma Akin.refl (kind : String) (s : Scene) : Akin kind s s := fun ws hv => ⟨ws, hv, fun _ _ => rfl⟩

lemma Akin.trans {s'' : Scene} (h : Akin kind s s') (h' : Akin kind s' s'') : Akin kind s s'' := by
  intro ws hv
  obtain ⟨ws', hv', heq⟩ := h ws hv
  obtain ⟨ws'', hv'', heq'⟩ := h' ws' hv'
  exact ⟨ws'', hv'', fun p f => (heq' p f).trans (heq p f)⟩

/-! ### Sharing -/

lemma StandardRule.eval_sharing {kind : String} {rule : Rule} (h : StandardRule kind rule)
    (hkind : kind ≠ "Unsqueeze") {shared : Nat → Except Error Bool}
    (hev : rule.eval s = .ok (u, ws)) :
    rule.eval { s with inputIsShared := shared } = .ok (u, ws) := by
  -- each rule reads the same of both scenes, so what it says of one is what it says of the other
  cases h with
  | parameter => exact eval_parameter.2 (eval_parameter.1 hev :)
  | constant => exact eval_constant.2 (eval_constant.1 hev :)
  | output => exact eval_output.2 (eval_output.1 hev :)
  | identity => exact eval_identity.2 (eval_identity.1 hev :)
  | reshape => exact eval_reshape.2 (eval_reshape.1 hev :)
  | unsqueeze => exact absurd rfl hkind
  | gather => exact eval_gather.2 (eval_gather.1 hev :)
  | sparseReshape => exact eval_sparseReshape.2 (eval_sparseReshape.1 hev :)
  | product => exact eval_product.2 (eval_product.1 hev :)
  | convert => exact eval_convert.2 (eval_convert.1 hev :)
  | proposals => exact eval_proposals.2 (eval_proposals.1 hev :)
  | queue kind => exact eval_queue.2 (eval_queue.1 hev :)
  | unary kind f => exact eval_unary.2 (eval_unary.1 hev :)
  | binary kind f => exact eval_binary.2 (eval_binary.1 hev :)

/-- Operations other than unsqueezes do not ask who else reads their inputs. -/
lemma akin_sharing (hs : s.attributes.find? "infer" = none) (hkind : kind ≠ "Unsqueeze")
    (shared : Nat → Except Error Bool) : Akin kind s { s with inputIsShared := shared } := by
  intro ws hv
  obtain ⟨e, he, hfind, hrequired, hws⟩ := (Registry.verdict_standard hs).1 hv
  refine ⟨ws, (Registry.verdict_standard (s := { s with inputIsShared := shared }) hs).2
    ⟨e, he, hfind, hrequired, ?_⟩, fun _ _ => rfl⟩
  show if s.hasUnknownInput then _ else _
  split at hws
  · next hu =>
    rw [if_pos hu]
    exact hws
  · next hu =>
    rw [if_neg hu]
    exact (standardRule_of_mem he).eval_sharing
      ((Registry.mem_of_find?_standard hfind).2 ▸ hkind) hws

/-! ### Axes -/

/-- Both facts hold axes at which the same unit axes come into a shape. -/
def Fact.SameAxes (a : Shape) (f f' : Fact) : Prop :=
  f.shape.isSome ∧ f'.shape.isSome ∧ ∃ t t' r, f.value = some t ∧ f'.value = some t' ∧
    Shape.unsqueeze a t.toInts = .ok r ∧ Shape.unsqueeze a t'.toInts = .ok r

lemma Fact.SameAxes.symm {a : Shape} {f f' : Fact} (h : f.SameAxes a f') : f'.SameAxes a f := by
  obtain ⟨hf, hf', t, t', r, ht, ht', hr, hr'⟩ := h
  exact ⟨hf', hf, t', t, r, ht', ht, hr', hr⟩

lemma Fact.SameAxes.trans {a : Shape} {f f' f'' : Fact} (h : f.SameAxes a f')
    (h' : f'.SameAxes a f'') : f.SameAxes a f'' := by
  obtain ⟨hf, -, t, t₁, r, ht, ht₁, hr, hr₁⟩ := h
  obtain ⟨-, hf'', t₁', t'', r', ht₁', ht'', hr₁', hr''⟩ := h'
  obtain rfl := Option.some.inj (ht₁.symm.trans ht₁')
  obtain rfl := Except.ok.inj (hr₁.symm.trans hr₁')
  exact ⟨hf, hf'', t, t'', r, ht, ht'', hr, hr''⟩

lemma Grid.ofCells_ok {α : Type} {shape : List Nat} {cells : List α}
    (hshape : Grid.indexable shape = true) (hlen : cells.length = Grid.count shape) :
    ∃ g, Grid.ofCells shape cells = .ok g := by
  unfold Grid.ofCells
  rw [dif_pos hshape, dif_pos hlen]
  exact ⟨_, rfl⟩

lemma axesWrites_ok {a shape : Shape} {axes : Tensor} {normalized : List Nat}
    (h : Shape.unsqueeze a axes.toInts = .ok (shape, normalized)) (shared : Bool) :
    ∃ ws, axesWrites (.ok shared) axes (normalized.map Int.ofNat) = .ok ws := by
  unfold axesWrites
  split
  · exact ⟨[], rfl⟩
  · cases shared with
    | true => exact ⟨[], rfl⟩
    | false =>
      have hlen : ((normalized.map Int.ofNat).map Int64.ofInt).length = Grid.count axes.shape := by
        rw [List.length_map, List.length_map, ← axes.length_toInts]
        exact (Shape.forall₂_of_mapM (Shape.unsqueeze_eq_ok.1 h).1).length_eq.symm
      obtain ⟨cells, hcells⟩ := Grid.ofCells_ok axes.fits hlen
      exact ⟨_, bind_eq_ok.2 ⟨false, rfl, bind_eq_ok.2 ⟨cells, hcells, rfl⟩⟩⟩

/-- A scene with the same around an operation, but for who else reads its inputs and for how the
axes of an unsqueeze are written. -/
structure Scene.Resembles (kind : String) (s s' : Scene) : Prop where
  name : s'.name = s.name
  attributes : s'.attributes = s.attributes
  inputPorts : s'.inputPorts = s.inputPorts
  outputPorts : s'.outputPorts = s.outputPorts
  inputFact : ∀ p, s'.inputFact p = s.inputFact p ∨ kind = "Unsqueeze" ∧ p = 1 ∧ ∃ a f f',
    s.inputShape 0 = .ok a ∧ s.inputFact 1 = .ok f ∧ s'.inputFact 1 = .ok f' ∧ f.SameAxes a f'
  inputIsShared : ∀ p f, s'.inputFact p = .ok f → ∃ b, s'.inputIsShared p = .ok b

lemma Scene.inputShape_congr (h : s'.inputFact p = s.inputFact p) :
    s'.inputShape p = s.inputShape p := by
  unfold Scene.inputShape
  rw [h]

lemma Scene.inputValue_congr (h : s'.inputFact p = s.inputFact p) :
    s'.inputValue p = s.inputValue p := by
  unfold Scene.inputValue
  rw [h]

lemma Scene.hasUnknownInput_congr (hports : s'.inputPorts = s.inputPorts)
    (hfact : ∀ p, s'.inputFact p = s.inputFact p ∨ ∃ f f', s.inputFact p = .ok f ∧
      s'.inputFact p = .ok f' ∧ f.shape.isSome ∧ f'.shape.isSome) :
    s'.hasUnknownInput = s.hasUnknownInput := by
  unfold Scene.hasUnknownInput
  rw [hports]
  refine Graph.any_congr_of_mem fun p _ => ?_
  rcases hfact p with h | ⟨f, f', hf, hf', hshape, hshape'⟩
  · rw [h]
  · obtain ⟨_, ha⟩ := Option.isSome_iff_exists.1 hshape
    obtain ⟨_, ha'⟩ := Option.isSome_iff_exists.1 hshape'
    simp [hf, hf', ha, ha']

/-- Scenes with the same name, attributes and ports differ in what is known of the inputs. -/
lemma Scene.eq_of_ports (hname : s'.name = s.name) (hattributes : s'.attributes = s.attributes)
    (hinputs : s'.inputPorts = s.inputPorts) (houtputs : s'.outputPorts = s.outputPorts) :
    s' = { s with inputFact := s'.inputFact, inputIsShared := s'.inputIsShared } := by
  cases s'
  cases s
  cases hname
  cases hattributes
  cases hinputs
  cases houtputs
  rfl

namespace Scene.Resembles

lemma hasUnknownInput (h : s.Resembles kind s') : s'.hasUnknownInput = s.hasUnknownInput := by
  refine Scene.hasUnknownInput_congr h.inputPorts fun p => (h.inputFact p).imp_right ?_
  rintro ⟨-, rfl, a, f, f', -, hf, hf', hshape, hshape', -⟩
  exact ⟨f, f', hf, hf', hshape, hshape'⟩

/-- Input 0 is not written differently. -/
lemma inputFact_zero (h : s.Resembles kind s') : s'.inputFact 0 = s.inputFact 0 :=
  (h.inputFact 0).resolve_right fun h => absurd h.2.1 (by decide)

/-- Axes that are read in one scene are read in the other, and mean the same. -/
lemma axes (h : s.Resembles kind s') {a shape : Shape} {axes : Tensor} {normalized : List Nat}
    (ha : s.inputShape 0 = .ok a) (haxes : s.inputValue 1 = .ok (some axes))
    (hr : Shape.unsqueeze a axes.toInts = .ok (shape, normalized)) :
    ∃ axes', s'.inputValue 1 = .ok (some axes') ∧
      Shape.unsqueeze a axes'.toInts = .ok (shape, normalized) := by
  rcases h.inputFact 1 with heq | ⟨-, -, a', f, f', ha', hf, hf', -, -, t, t', r, ht, ht', hr₁, hr₂⟩
  · exact ⟨axes, (Scene.inputValue_congr heq).trans haxes, hr⟩
  · obtain rfl := Except.ok.inj (ha'.symm.trans ha)
    obtain ⟨f₁, hf₁, hvalue⟩ := Scene.inputValue_eq_ok.1 haxes
    obtain rfl := Except.ok.inj (hf.symm.trans hf₁)
    obtain rfl := Option.some.inj (ht.symm.trans hvalue)
    obtain rfl := Except.ok.inj (hr₁.symm.trans hr)
    exact ⟨t', Scene.inputValue_eq_ok.2 ⟨f', hf', ht'⟩, hr₂⟩

lemma eval_unsqueeze (h : s.Resembles kind s') (hev : unsqueeze.eval s = .ok (u, ws)) :
    ∃ ws', unsqueeze.eval s' = .ok (u, ws') ∧ ∀ p f, portFact p f ws' = portFact p f ws := by
  obtain ⟨a, axes?, ha, haxes, hrest⟩ := Rules.eval_unsqueeze.1 hev
  have ha' := (Scene.inputShape_congr h.inputFact_zero).trans ha
  rcases axes? with _ | axes
  · -- axes that are not known are the same in both scenes
    have heq : s'.inputFact 1 = s.inputFact 1 := by
      rcases h.inputFact 1 with heq | ⟨-, -, a', f, f', -, hf, -, -, -, t, -, -, ht, -⟩
      · exact heq
      · obtain ⟨f₁, hf₁, hvalue⟩ := Scene.inputValue_eq_ok.1 haxes
        obtain rfl := Except.ok.inj (hf.symm.trans hf₁)
        cases ht.symm.trans hvalue
    obtain ⟨b, r, hb, hr, rfl⟩ := hrest
    exact ⟨_, Rules.eval_unsqueeze.2 ⟨a, none, ha', (Scene.inputValue_congr heq).trans haxes, b, r,
      (Scene.inputShape_congr heq).trans hb, hr, rfl⟩, fun _ _ => rfl⟩
  · obtain ⟨shape, normalized, wsAxes, x, v, hshape, hwrites, hvalid, hx, hv, rfl⟩ := hrest
    obtain ⟨axes', haxes', hshape'⟩ := h.axes ha haxes hshape
    obtain ⟨f', hf', -⟩ := Scene.inputValue_eq_ok.1 haxes'
    obtain ⟨shared, hshared⟩ := h.inputIsShared 1 f' hf'
    obtain ⟨wsAxes', hwrites'⟩ := axesWrites_ok hshape' shared
    refine ⟨_, Rules.eval_unsqueeze.2 ⟨a, some axes', ha', haxes', shape, normalized, wsAxes', x, v,
      hshape', hshared ▸ hwrites', hvalid, (Scene.inputValue_congr h.inputFact_zero).trans hx, hv,
      rfl⟩, fun p f => ?_⟩
    rw [portFact_append, portFact_append, portFact_of_silent (silent_axesWrites hwrites p),
      portFact_of_silent (silent_axesWrites hwrites' p)]

/-- **Resemblance**: an operation writes the same to its outputs in scenes that resemble. -/
theorem akin (h : s.Resembles kind s') (hs : s.attributes.find? "infer" = none) :
    Akin kind s s' := by
  by_cases hkind : kind = "Unsqueeze"
  · subst hkind
    intro ws hv
    have he : OpEntry.standard.reverse.find? (·.kind = "Unsqueeze") =
        some (.ofRule "Unsqueeze" unsqueeze) := rfl
    obtain ⟨-, hws⟩ := (Registry.verdict_of_find? he hs).1 hv
    rw [← h.hasUnknownInput] at hws
    have hverdict (ws : List Write) := (Registry.verdict_of_find? he (h.attributes ▸ hs) :
      Registry.standard.verdict "Unsqueeze" s' = .ok ws ↔ _).2
    split at hws
    · next hu =>
      refine ⟨ws, hverdict ws ⟨rfl, ?_⟩, fun _ _ => rfl⟩
      rw [if_pos hu, h.outputPorts]
      exact hws
    · next hu =>
      have hfilled : (s.filled (.ofRule "Unsqueeze" unsqueeze)).Resembles "Unsqueeze"
          (s'.filled (.ofRule "Unsqueeze" unsqueeze)) :=
        { h with attributes := congrArg (Dict.union _) h.attributes }
      obtain ⟨ws', hev, heq⟩ := hfilled.eval_unsqueeze hws
      refine ⟨ws', hverdict ws' ⟨rfl, ?_⟩, heq⟩
      rw [if_neg hu]
      exact hev
  · have hs' : s' = { s with inputIsShared := s'.inputIsShared } := by
      have hfact : s'.inputFact = s.inputFact := funext fun p =>
        (h.inputFact p).resolve_right fun h => hkind h.1
      rw [← hfact]
      exact Scene.eq_of_ports h.name h.attributes h.inputPorts h.outputPorts
    rw [hs']
    exact akin_sharing hs hkind _

end Scene.Resembles

/-! ### Axes that are written over -/

/-- The first fact holds axes that are not counted from the left, the second one the same axes
counted so. -/
def Fact.Counted (a : Shape) (f f' : Fact) : Prop :=
  ∃ axes shape normalized cells, f.value = some axes ∧
    Shape.unsqueeze a axes.toInts = .ok (shape, normalized) ∧
    normalized.map Int.ofNat ≠ axes.toInts ∧
    Grid.ofCells axes.shape ((normalized.map Int.ofNat).map Int64.ofInt) = .ok cells ∧
    f' = .ofValue (.i64 cells)

/-- The elements of the axes that were counted. -/
lemma Shape.toInts_normalized {a shape : Shape} {axes : List Int} {normalized sizes : List Nat}
    {cells : Grid Int64} (h : unsqueeze a axes = .ok (shape, normalized))
    (hcells : Grid.ofCells sizes ((normalized.map Int.ofNat).map Int64.ofInt) = .ok cells) :
    (Tensor.i64 cells).toInts = normalized.map Int.ofNat := by
  refine Tensor.toInts_ofCells hcells fun n hn => ?_
  obtain ⟨axis, -, hstep⟩ := of_forall₂_right (forall₂_of_mapM (unsqueeze_eq_ok.1 h).1) hn
  exact Int.lt_trans (normalizeAxis_lt hstep) (signed_lt _)

namespace Fact.Counted

variable {a : Shape} {f f' f'' : Fact}

lemma sameAxes (h : f.Counted a f') (hf : f.shape.isSome) : f.SameAxes a f' := by
  obtain ⟨axes, shape, normalized, cells, hvalue, hshape, -, hcells, rfl⟩ := h
  refine ⟨hf, rfl, axes, .i64 cells, _, hvalue, rfl, hshape, ?_⟩
  rw [Shape.toInts_normalized hshape hcells]
  exact Shape.unsqueeze_again hshape

/-- Axes that are counted from the left are others than before. -/
lemma update (h : f.Counted a f') : f.update f' = f' := by
  obtain ⟨axes, shape, normalized, cells, hvalue, hshape, hne, hcells, rfl⟩ := h
  refine Fact.update_of_toInts_ne hvalue ?_
  rw [Shape.toInts_normalized hshape hcells]
  exact hne.symm

lemma unique (h : f.Counted a f') (h' : f.Counted a f'') : f' = f'' := by
  obtain ⟨axes, shape, normalized, cells, hvalue, hshape, -, hcells, rfl⟩ := h
  obtain ⟨axes', shape', normalized', cells', hvalue', hshape', -, hcells', rfl⟩ := h'
  obtain rfl := Option.some.inj (hvalue.symm.trans hvalue')
  obtain ⟨-, rfl⟩ := Prod.mk.inj (Except.ok.inj (hshape.symm.trans hshape'))
  obtain rfl := Except.ok.inj (hcells.symm.trans hcells')
  rfl

/-- Axes that were counted from the left are not counted once more. -/
lemma not_again (h : f.Counted a f') : ¬f'.Counted a f'' := by
  obtain ⟨axes, shape, normalized, cells, -, hshape, -, hcells, rfl⟩ := h
  rintro ⟨axes', shape', normalized', cells', hvalue, hshape', hne, -⟩
  obtain rfl := Option.some.inj hvalue
  rw [Shape.toInts_normalized hshape hcells] at hshape' hne
  obtain ⟨-, rfl⟩ := Prod.mk.inj (Except.ok.inj ((Shape.unsqueeze_again hshape).symm.trans hshape'))
  exact hne rfl

end Fact.Counted

/-- What an operation writes to its inputs is nothing, or its axes counted from the left when no
other operation reads them. -/
inductive Rephrases (kind : String) (s : Scene) : List Write → Prop
  | quiet {ws : List Write} : Quiet ws → Rephrases kind s ws
  | axes {a : Shape} {f : Fact} {cells : Grid Int64} {ws : List Write} : kind = "Unsqueeze" →
      s.hasUnknownInput = false → s.inputShape 0 = .ok a → s.inputFact 1 = .ok f →
      f.Counted a (.ofValue (.i64 cells)) → s.inputIsShared 1 = .ok false → Quiet ws →
      Rephrases kind s (.inputValue 1 (.i64 cells) :: ws)

lemma rephrases_unsqueeze (hunknown : s.hasUnknownInput = false)
    (hev : unsqueeze.eval s = .ok (u, ws)) : Rephrases "Unsqueeze" s ws := by
  obtain ⟨a, axes?, ha, haxes, hrest⟩ := eval_unsqueeze.1 hev
  rcases axes? with _ | axes
  · obtain ⟨b, r, -, -, rfl⟩ := hrest
    exact .quiet (quiet_ranked r)
  obtain ⟨shape, normalized, wsAxes, x, v, hshape, hwrites, -, -, -, rfl⟩ := hrest
  obtain ⟨f, hf, hvalue⟩ := Scene.inputValue_eq_ok.1 haxes
  unfold axesWrites at hwrites
  split at hwrites
  · cases hwrites
    exact .quiet (quiet_shaped 0 shape v)
  next hne =>
  obtain ⟨shared, hshared, hwrites⟩ := bind_eq_ok.1 hwrites
  cases shared with
  | true =>
    cases hwrites
    exact .quiet (quiet_shaped 0 shape v)
  | false =>
    obtain ⟨cells, hcells, hwrites⟩ := bind_eq_ok.1 hwrites
    cases hwrites
    exact .axes rfl hunknown ha hf
      ⟨axes, shape, normalized, cells, hvalue, hshape, hne, hcells, rfl⟩
      hshared (quiet_shaped 0 shape v)

/-- Axes that are not counted from the left and that no other operation reads are written over. -/
lemma not_quiet_unsqueeze {a : Shape} {f f' : Fact} (hev : unsqueeze.eval s = .ok (u, ws))
    (ha : s.inputShape 0 = .ok a) (hf : s.inputFact 1 = .ok f) (hcounted : f.Counted a f')
    (hshared : s.inputIsShared 1 = .ok false) : ¬Quiet ws := by
  obtain ⟨axes, shape, normalized, cells, hvalue, hshape, hne, hcells, -⟩ := hcounted
  obtain ⟨a', axes?, ha', haxes, hrest⟩ := eval_unsqueeze.1 hev
  obtain rfl := Except.ok.inj (ha.symm.trans ha')
  obtain rfl := Except.ok.inj ((Scene.inputValue_eq_ok.2 ⟨f, hf, hvalue⟩).symm.trans haxes)
  obtain ⟨shape', normalized', wsAxes, x, v, hshape', hwrites, -, -, -, rfl⟩ := hrest
  obtain ⟨rfl, rfl⟩ := Prod.mk.inj (Except.ok.inj (hshape.symm.trans hshape'))
  have hws : axesWrites (.ok false) axes (normalized.map Int.ofNat) =
      .ok [.inputValue 1 (.i64 cells)] := by
    unfold axesWrites
    rw [if_neg hne]
    exact bind_eq_ok.2 ⟨false, rfl, bind_eq_ok.2 ⟨cells, hcells, rfl⟩⟩
  obtain rfl := Except.ok.inj (hws.symm.trans (hshared ▸ hwrites))
  intro hquiet
  exact absurd (hquiet _ (List.mem_cons_self ..) 1) (by simp [Write.puts])

namespace Registry

/-- **What is written to inputs**: an operation leaves its inputs as they are, or it unsqueezes and
writes the same axes in another way. -/
lemma rephrases_verdict (hs : s.attributes.find? "infer" = none)
    (hv : standard.verdict kind s = .ok ws) : Rephrases kind s ws := by
  rcases quiet_or_renumbers hs hv with hquiet | ⟨rfl, -⟩
  · exact .quiet hquiet
  obtain ⟨-, hws⟩ := (verdict_of_find? (e := .ofRule "Unsqueeze" unsqueeze) (by rfl) hs).1 hv
  split at hws
  · exact .quiet (hws ▸ quiet_unknowns _)
  · next hu =>
    cases rephrases_unsqueeze (by exact Bool.eq_false_iff.2 hu) hws with
    | quiet h => exact .quiet h
    | axes _ hu ha hf hcounted hshared hquiet => exact .axes rfl hu ha hf hcounted hshared hquiet

lemma not_quiet_verdict {a : Shape} {f f' : Fact} (hs : s.attributes.find? "infer" = none)
    (hv : standard.verdict "Unsqueeze" s = .ok ws) (hu : s.hasUnknownInput = false)
    (ha : s.inputShape 0 = .ok a) (hf : s.inputFact 1 = .ok f) (hcounted : f.Counted a f')
    (hshared : s.inputIsShared 1 = .ok false) : ¬Quiet ws := by
  obtain ⟨-, hws⟩ := (verdict_of_find? (e := .ofRule "Unsqueeze" unsqueeze) (by rfl) hs).1 hv
  rw [hu, if_neg Bool.false_ne_true] at hws
  exact not_quiet_unsqueeze hws ha hf hcounted hshared

end Registry

/-! ### Attributes that an operation sets itself -/

lemma Attributes.taken_append (a : Attributes) (ws ws' : List Write) :
    Attributes.taken a (ws ++ ws') = Attributes.taken (Attributes.taken a ws) ws' :=
  List.foldl_append

/-- Region proposals with the same numbers around other scales. -/
lemma eval_proposals_again {texts : List String} (hev : proposals.eval s = .ok (u, ws))
    (hint : ∀ name, name ≠ "scale" → s'.int name = s.int name)
    (hports : s'.outputPorts = s.outputPorts)
    (hscale' : scaleWrites (s'.attr? "scale") = .ok [.attr "scale" (.strings texts)]) :
    ∃ ws', proposals.eval s' = .ok (u, ws') ∧ ∀ p f, portFact p f ws' = portFact p f ws := by
  obtain ⟨stride, wsScale, hstride, hscale, hrest⟩ := eval_proposals.1 hev
  have hstride' := (hint "feat_stride" (by decide)).trans hstride
  have hsame : ∀ body p f, portFact p f ([.attr "scale" (.strings texts)] ++ body) =
      portFact p f (wsScale ++ body) := fun body p f => by
    rw [portFact_append, portFact_append, portFact_of_silent (silent_scaleWrites hscale p)]
    rfl
  split at hrest
  · next hs =>
    obtain ⟨n, hn, hvalid, rfl⟩ := hrest
    refine ⟨_, eval_proposals.2 ⟨stride, _, hstride', hscale', ?_⟩, hsame [.outputShape 0 [n, 5]]⟩
    rw [if_pos hs]
    exact ⟨n, (hint "post_nms_topn" (by decide)).trans hn, hvalid, rfl⟩
  · next hs =>
    rw [hrest]
    refine ⟨_, eval_proposals.2 ⟨stride, _, hstride', hscale', ?_⟩,
      hsame (s.outputPorts.map .outputUnknown)⟩
    rw [if_neg hs, hports]

/-- Scales that were written as texts are written so again. -/
lemma akin_scale (hs : s.attributes.find? "infer" = none) (texts : List String) :
    Akin "SimplerNMS" s
      { s with attributes := Attributes.store s.attributes "scale" (.strings texts) } := by
  set s' : Scene := { s with attributes := Attributes.store s.attributes "scale" (.strings texts) }
  have hkeep {name : String} (h : name ≠ "scale") :
      s'.attributes.find? name = s.attributes.find? name := Attributes.find?_store_of_ne _ h _
  obtain ⟨e, he, hrule, hnames⟩ : ∃ e,
      OpEntry.standard.reverse.find? (·.kind = "SimplerNMS") = some e ∧ e.rule = proposals ∧
        "scale" ∉ e.required := ⟨_, rfl, rfl, by decide⟩
  intro ws hv
  obtain ⟨hrequired, hws⟩ := (Registry.verdict_of_find? he hs).1 hv
  have hrequired' : (e.required.find? fun name => !s'.attributes.contains name) = none := by
    rw [List.find?_eq_none] at hrequired ⊢
    intro name hname
    unfold Dict.contains
    rw [hkeep fun heq => hnames (heq ▸ hname)]
    exact hrequired name hname
  have hverdict (ws : List Write) := (Registry.verdict_of_find? he ((hkeep (by decide)).trans hs) :
    Registry.standard.verdict "SimplerNMS" s' = .ok ws ↔ _).2
  have hunknown : s'.hasUnknownInput = s.hasUnknownInput := rfl
  rw [hunknown, hrule] at hverdict
  rw [hrule] at hws
  split at hws
  · next hu => exact ⟨ws, hverdict ws ⟨hrequired', (if_pos hu).symm ▸ hws⟩, fun _ _ => rfl⟩
  · next hu =>
    have hint : ∀ name, name ≠ "scale" → (s'.filled e).int name = (s.filled e).int name := by
      intro name hname
      unfold Scene.int Scene.typed Scene.attr
      rw [Scene.attr?_filled, Scene.attr?_filled, hkeep hname]
    have hscale : scaleWrites ((s'.filled e).attr? "scale") =
        .ok [.attr "scale" (.strings texts)] := by
      rw [Scene.attr?_filled, Attributes.find?_store_strings]
      rfl
    obtain ⟨ws', hev, hsame⟩ := eval_proposals_again hws hint rfl hscale
    exact ⟨ws', hverdict ws' ⟨hrequired', (if_neg hu).symm ▸ hev⟩, hsame⟩

/-- No operation gives itself a rule. -/
lemma Attributes.plain_taken (hs : s.attributes.find? "infer" = none)
    (hv : Registry.standard.verdict kind s = .ok ws) :
    (Attributes.taken s.attributes ws).find? "infer" = none := by
  obtain ⟨front, body, rfl, hfront, hbody⟩ := Registry.ordered_verdict hs hv
  rw [Attributes.taken_append, hbody.taken]
  cases hfront with
  | nothing => exact hs
  | axes value => exact hs
  | scale texts hkind => exact (Attributes.find?_store_of_ne _ (by decide) _).trans hs

/-- The attributes that an operation sets leave what it writes to its outputs. -/
theorem akin_taken (hs : s.attributes.find? "infer" = none)
    (hv : Registry.standard.verdict kind s = .ok ws) :
    Akin kind s { s with attributes := Attributes.taken s.attributes ws } := by
  obtain ⟨front, body, rfl, hfront, hbody⟩ := Registry.ordered_verdict hs hv
  rw [Attributes.taken_append, hbody.taken]
  cases hfront with
  | nothing => exact .refl kind s
  | axes value => exact .refl kind s
  | scale texts hkind =>
    subst hkind
    exact akin_scale hs texts

lemma Attributes.store_again (a : Attributes) (name : String) (texts : List String) :
    (a.store name (.strings texts)).store name (.strings texts) =
      a.store name (.strings texts) := by
  have hfind : (a.store name (.strings texts)).find? name = some (.strings texts) :=
    a.find?_store_strings name texts
  generalize a.store name (.strings texts) = a' at hfind ⊢
  unfold Attributes.store
  rw [hfind]
  exact if_pos (beq_self_eq_true texts)

/-- Only region proposals set an attribute. -/
lemma Attributes.taken_of_ne (hs : s.attributes.find? "infer" = none)
    (hv : Registry.standard.verdict kind s = .ok ws) (hkind : kind ≠ "SimplerNMS")
    (a : Attributes) : Attributes.taken a ws = a := by
  obtain ⟨front, body, rfl, hfront, hbody⟩ := Registry.ordered_verdict hs hv
  rw [Attributes.taken_append, hbody.taken]
  cases hfront with
  | nothing => rfl
  | axes value => rfl
  | scale texts hkind' => exact absurd hkind' hkind

/-- The scales that region proposals set. -/
lemma Attributes.taken_proposals (hev : proposals.eval s = .ok (u, ws)) (a : Attributes) :
    ∃ wsScale, scaleWrites (s.attr? "scale") = .ok wsScale ∧
      Attributes.taken a ws = Attributes.taken a wsScale := by
  obtain ⟨stride, wsScale, -, hscale, hrest⟩ := eval_proposals.1 hev
  refine ⟨wsScale, hscale, ?_⟩
  split at hrest
  · obtain ⟨n, -, -, rfl⟩ := hrest
    rw [Attributes.taken_append]
    rfl
  · rw [hrest, Attributes.taken_append]
    exact Attributes.taken_of_forall _ (by simp)

/-- The attributes that an operation has set are set to the same when it is inferred again. -/
lemma Attributes.taken_again (hs : s.attributes.find? "infer" = none)
    (hv : Registry.standard.verdict kind s = .ok ws)
    (hattr : s'.attributes = Attributes.taken s.attributes ws)
    (hunknown : s'.hasUnknownInput = s.hasUnknownInput) {ws' : List Write}
    (hv' : Registry.standard.verdict kind s' = .ok ws') :
    Attributes.taken s'.attributes ws' = s'.attributes := by
  have hs' : s'.attributes.find? "infer" = none := hattr ▸ Attributes.plain_taken hs hv
  by_cases hkind : kind ≠ "SimplerNMS"
  · exact Attributes.taken_of_ne hs' hv' hkind s'.attributes
  obtain rfl : kind = "SimplerNMS" := by simpa using hkind
  obtain ⟨e, he, hrule, hdefault⟩ : ∃ e, OpEntry.standard.reverse.find? (·.kind = "SimplerNMS") =
    some e ∧ e.rule = proposals ∧ e.defaults.find? "scale" = none := ⟨_, rfl, rfl, rfl⟩
  obtain ⟨-, hws⟩ := (Registry.verdict_of_find? he hs).1 hv
  obtain ⟨-, hws'⟩ := (Registry.verdict_of_find? he hs').1 hv'
  rw [hunknown] at hws'
  split at hws'
  · exact hws' ▸ Attributes.taken_of_forall _ (by simp)
  next hu =>
  rw [if_neg hu, hrule] at hws
  rw [hrule] at hws'
  obtain ⟨wsScale, hscale, htaken⟩ := Attributes.taken_proposals hws s.attributes
  obtain ⟨wsScale', hscale', htaken'⟩ := Attributes.taken_proposals hws' s'.attributes
  rw [htaken']
  rw [htaken] at hattr
  rw [Scene.attr?_filled, hdefault, Option.or_none] at hscale hscale'
  rcases hfind : s.attributes.find? "scale" with _ | scale
  · rw [hfind] at hscale
    cases hscale
    rw [hattr] at hscale'
    replace hscale' : scaleWrites (s.attributes.find? "scale") = .ok wsScale' := hscale'
    rw [hfind] at hscale'
    cases hscale'
    rfl
  · rw [hfind] at hscale
    obtain ⟨texts, -, rfl⟩ := map_eq_ok.1 hscale
    replace hattr : s'.attributes = Attributes.store s.attributes "scale" (.strings texts) := hattr
    rw [hattr, Attributes.find?_store_strings] at hscale'
    obtain rfl := Except.ok.inj hscale'
    rw [hattr]
    exact Attributes.store_again s.attributes "scale" texts

/-! ### Patterns -/

/-- Are zeros of a pattern dimensions to copy? -/
def Scene.copiesZero (s : Scene) : Bool :=
  ((s.attributes.find? "special_zero").bind (·.toBool?)).getD true

lemma Scene.copiesZero_eq {e : OpEntry} (he : e.defaults.find? "special_zero" = some (.bool true))
    {zero : Bool} (h : (s.filled e).bool "special_zero" = .ok zero) : s.copiesZero = zero := by
  replace h : ((s.filled e).attr? "special_zero").bind (·.toBool?) = some zero :=
    Scene.typed_eq_ok.1 h
  rw [Scene.attr?_filled, he] at h
  unfold Scene.copiesZero
  rcases hfind : s.attributes.find? "special_zero" with _ | a
  · rw [hfind] at h
    exact Option.some.inj h
  · rw [hfind] at h
    rw [show (some a).bind (·.toBool?) = some zero from h, Option.getD_some]

/-- A reshape writes the same for another pattern that reshapes its input to the same. -/
theorem akin_pattern (hs : s.attributes.find? "infer" = none) {facts : Nat → Except Error Fact}
    (hfacts : ∀ p ≠ 1, facts p = s.inputFact p) {f f' : Fact} {t t' : Tensor}
    (hf : s.inputFact 1 = .ok f) (hf' : facts 1 = .ok f') (ht : f.value = some t)
    (ht' : f'.value = some t') (hshape : f.shape.isSome) (hshape' : f'.shape.isSome)
    (hsame : ∀ a, s.inputShape 0 = .ok a →
      Shape.reshape a t'.toInts s.copiesZero = Shape.reshape a t.toInts s.copiesZero) :
    Akin "Reshape" s { s with inputFact := facts } := by
  set s' : Scene := { s with inputFact := facts }
  obtain ⟨e, he, hrule, hzero⟩ : ∃ e, OpEntry.standard.reverse.find? (·.kind = "Reshape") = some e ∧
      e.rule = reshape ∧ e.defaults.find? "special_zero" = some (.bool true) := ⟨_, rfl, rfl, rfl⟩
  have hunknown : s'.hasUnknownInput = s.hasUnknownInput := by
    refine Scene.hasUnknownInput_congr rfl fun p => ?_
    by_cases hp : p = 1
    · exact Or.inr ⟨f, f', hp ▸ hf, hp ▸ hf', hshape, hshape'⟩
    · exact Or.inl (hfacts p hp)
  intro ws hverdict
  obtain ⟨hrequired, hws⟩ := (Registry.verdict_of_find? he hs).1 hverdict
  refine ⟨ws, (Registry.verdict_of_find? (s := s') he hs).2 ⟨hrequired, ?_⟩, fun _ _ => rfl⟩
  rw [hunknown]
  split at hws
  · next hu =>
    rw [if_pos hu]
    exact hws
  · next hu =>
    rw [if_neg hu]
    rw [hrule] at hws ⊢
    obtain ⟨zero, a, pattern?, hread, ha, hpattern, hrest⟩ := eval_reshape.1 hws
    obtain ⟨f₁, hf₁, hvalue⟩ := Scene.inputValue_eq_ok.1 hpattern
    obtain rfl := Except.ok.inj (hf.symm.trans hf₁)
    obtain rfl := ht.symm.trans hvalue
    obtain ⟨shape, x, v, hreshape, hvalid, hx, hv, rfl⟩ := hrest
    have hport : (s'.filled e).inputFact 0 = (s.filled e).inputFact 0 := hfacts 0 (by decide)
    refine eval_reshape.2 ⟨zero, a, some t', hread, (Scene.inputShape_congr hport).trans ha,
      Scene.inputValue_eq_ok.2 ⟨f', hf', ht'⟩, shape, x, v, ?_, hvalid,
      (Scene.inputValue_congr hport).trans hx, hv, rfl⟩
    have hagree := hsame a ha
    rw [Scene.copiesZero_eq hzero hread] at hagree
    exact hagree.trans hreshape

end TensorGraph
