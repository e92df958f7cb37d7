import TensorGraph.Proofs.Written

/-!
The rules of the standard registry, taken together.

`StandardRule` lists them. They look at their scenes only, and where values have their shapes they
write what is safe. What the registry makes of an operation comes down to its entry
(`Registry.verdict_standard`).
-/

namespace TensorGraph

open RuleM Rules

/-! ### Entries -/

/-- The rules of the standard entries, with the kinds that have one of their own. -/
inductive StandardRule : String → Rule → Prop
  | parameter : StandardRule "Parameter" parameter
  | constant : StandardRule "Const" constant
  | output : StandardRule "Result" output
  | identity : StandardRule "Identity" identity
  | reshape : StandardRule "Reshape" reshape
  | unsqueeze : StandardRule "Unsqueeze" unsqueeze
  | gather : StandardRule "GatherElements" gather
  | sparseReshape : StandardRule "SparseReshape" sparseReshape
  | product : StandardRule "MatMul" product
  | convert : StandardRule "Convert" convert
  | proposals : StandardRule "SimplerNMS" proposals
  | queue (kind : String) : StandardRule kind queue
  | unary (kind : String) (f : Elementwise.Unary) : StandardRule kind (unary f)
  | binary (kind : String) (f : Elementwise.Binary) : StandardRule kind (binary f)

lemma standardRule_of_mem {e : OpEntry} (he : e ∈ OpEntry.standard) :
    StandardRule e.kind e.rule := by
  unfold OpEntry.standard at he
  rw [List.mem_append, List.mem_append, List.mem_map, List.mem_map] at he
  rcases he with (he | ⟨k, -, rfl⟩) | ⟨k, -, rfl⟩
  · simp only [List.mem_cons, List.not_mem_nil, or_false] at he
    rcases he with rfl | rfl | rfl | rfl | rfl | rfl | rfl | rfl | rfl | rfl | rfl | rfl | rfl
    · exact .parameter
    · exact .constant
    · exact .output
    · exact .identity
    · exact .reshape
    · exact .unsqueeze
    · exact .gather
    · exact .sparseReshape
    · exact .product
    · exact .convert
    · exact .proposals
    · exact .queue _
    · exact .queue _
  · exact .unary k.1 k.2
  · exact .binary k.1 k.2

namespace Registry

lemma find?_foldl_insert (l : List OpEntry) (r : Registry) (kind : String) :
    (l.foldl Registry.insert r).find? kind =
      (l.reverse.find? fun e => e.kind = kind).or (r.find? kind) := by
  induction l generalizing r with
  | nil => rfl
  | cons e l ih =>
    have hins : (r.insert e).find? kind = if kind = e.kind then some e else r.find? kind :=
      Dict.find?_insert ..
    rw [List.foldl_cons, ih, List.reverse_cons, List.find?_append, hins]
    by_cases h : kind = e.kind
    · simp [h]
    · rw [if_neg h]
      simp [Ne.symm h]

lemma find?_standard (kind : String) : standard.find? kind =
    OpEntry.standard.reverse.find? fun e => e.kind = kind := by
  show (OpEntry.standard.foldl Registry.insert ∅).find? kind = _
  rw [find?_foldl_insert]
  show Option.or _ none = _
  exact Option.or_none

lemma mem_of_find?_standard {kind : String} {e : OpEntry} (he : standard.find? kind = some e) :
    e ∈ OpEntry.standard ∧ e.kind = kind := by
  rw [find?_standard] at he
  exact ⟨List.mem_reverse.1 (List.mem_of_find?_eq_some he), by simpa using List.find?_some he⟩

end Registry

/-- No default names a rule. -/
lemma OpEntry.infer_of_mem {e : OpEntry} (he : e ∈ OpEntry.standard) :
    e.defaults.find? "infer" = none := by
  have hall : ∀ e ∈ OpEntry.standard, (e.defaults.find? "infer").isNone = true := by
    decide +kernel
  exact Option.isNone_iff_eq_none.1 (hall e he)

/-! ### Locality -/

lemma local_inputShape (p : Nat) : (read (·.inputShape p)).Local :=
  local_read fun _ _ h => congrArg (fun s : Scene => s.inputShape p) h

lemma local_inputValue (p : Nat) : (read (·.inputValue p)).Local :=
  local_read fun _ _ h => congrArg (fun s : Scene => s.inputValue p) h

lemma local_setOutputValue? (p : Nat) (v : Option Tensor) : (setOutputValue? p v).Local := by
  cases v
  · exact local_pure ()
  · exact local_perform _

lemma local_reshapeValue (shape : Shape) : (reshapeValue shape).Local := by
  refine local_bind (local_inputValue 0) fun v => ?_
  cases v with
  | none => exact local_pure ()
  | some t => exact local_bind (local_liftM _) fun _ => local_perform _

lemma local_reshapeUnknown (b : Shape) : (reshapeUnknown b).Local := by
  unfold reshapeUnknown
  split
  · split
    · exact local_perform _
    · exact local_perform _
  · exact local_perform _

lemma local_replaceAxes (axes : Tensor) (l : List Int) : (replaceAxes axes l).Local := by
  unfold replaceAxes
  split
  · exact local_pure ()
  · refine local_bind (local_read fun _ _ h => congrArg (fun s : Scene => s.inputIsShared 1) h)
      fun shared => ?_
    split
    · exact local_pure ()
    · refine local_bind (local_liftM _) fun t => ?_
      refine local_bind (local_read fun _ _ h => congrArg (fun s : Scene => Except.ok s.name) h)
        fun name => ?_
      exact local_bind (local_say _ _) fun _ => local_perform _

lemma local_unsqueezeUnknown (rank : Nat) (b : Shape) : (unsqueezeUnknown rank b).Local := by
  unfold unsqueezeUnknown
  split
  · exact local_perform _
  · exact local_bind (local_liftM _) fun _ => local_perform _

lemma local_replaceScale : replaceScale.Local := by
  refine local_bind (local_read fun _ _ h =>
    congrArg (fun s : Scene => Except.ok (s.attr? "scale")) h)
    fun scale => ?_
  split
  · exact local_bind (local_liftM _) fun _ => local_perform _
  · exact local_pure ()

/-- A rule that ends with a value folded of two. -/
lemma local_bothValues {f : Tensor → Tensor → Except Error Tensor} {p : Nat} :
    (do
      match ← read (·.inputValue 0), ← read (·.inputValue 1) with
      | some x, some y => setOutputValue p (← f x y)
      | _, _ => pure () : Rule).Local := by
  refine local_bind (local_inputValue 0) fun x => local_bind (local_inputValue 1) fun y => ?_
  rcases x with _ | x <;> rcases y with _ | y
  · exact local_pure ()
  · exact local_pure ()
  · exact local_pure ()
  · exact local_bind (local_liftM _) fun _ => local_perform _

lemma local_int (name : String) : (read (·.int name)).Local :=
  local_read fun _ _ h => congrArg (fun s : Scene => s.int name) h

lemma local_bool (name : String) : (read (·.bool name)).Local :=
  local_read fun _ _ h => congrArg (fun s : Scene => s.bool name) h

/-- The standard rules look at their scenes only. -/
lemma StandardRule.local {kind : String} {rule : Rule} (h : StandardRule kind rule) :
    rule.Local := by
  cases h with
  | parameter =>
    exact local_bind (local_read fun _ _ h => congrArg (fun s : Scene => s.ints "shape") h)
      fun _ => local_perform _
  | constant =>
    refine local_bind (local_read fun _ _ h => congrArg
      (fun s : Scene => Except.ok ((s.attr? "value").bind (·.toTensor?))) h) fun v => ?_
    cases v
    · exact local_fail _
    · exact local_perform _
  | output => exact local_pure ()
  | identity =>
    exact local_bind (local_inputShape 0) fun _ => local_bind (local_perform _) fun _ =>
      local_bind (local_inputValue 0) fun _ => local_setOutputValue? 0 _
  | reshape =>
    refine local_bind (local_bool _) fun zero => local_bind (local_inputShape 0) fun a =>
      local_bind (local_inputValue 1) fun v => ?_
    cases v with
    | none => exact local_bind (local_inputShape 1) fun _ => local_reshapeUnknown _
    | some t =>
      exact local_bind (local_liftM _) fun _ => local_bind (local_perform _) fun _ =>
        local_reshapeValue _
  | unsqueeze =>
    refine local_bind (local_inputShape 0) fun a => local_bind (local_inputValue 1) fun v => ?_
    cases v with
    | none => exact local_bind (local_inputShape 1) fun _ => local_unsqueezeUnknown _ _
    | some t =>
      exact local_bind (local_liftM _) fun _ => local_bind (local_replaceAxes _ _) fun _ =>
        local_bind (local_perform _) fun _ => local_reshapeValue _
  | gather =>
    exact local_bind (local_inputShape 0) fun _ => local_bind (local_inputShape 1) fun _ =>
      local_bind (local_liftM _) fun _ => local_bind (local_int _) fun _ =>
      local_bind (local_liftM _) fun _ => local_bind (local_liftM _) fun _ =>
      local_bind (local_perform _) fun _ => local_bothValues
  | sparseReshape =>
    refine local_bind (local_inputShape 0) fun m => local_bind (local_liftM _) fun size =>
      local_bind (local_inputShape 2) fun b => local_bind (local_liftM _) fun rank =>
      local_bind (local_perform _) fun _ => local_bind (local_inputValue 1) fun input =>
      local_bind (local_inputValue 2) fun new => ?_
    rcases input with _ | input <;> rcases new with _ | new
    · exact local_perform _
    · exact local_perform _
    · exact local_perform _
    · refine local_bind (local_liftM _) fun _ => local_bind (local_liftM _) fun output =>
        local_bind (local_perform _) fun _ => local_bind (local_inputValue 0) fun v => ?_
      cases v with
      | none => exact local_pure ()
      | some t =>
        simp only
        split
        · exact local_bind (local_liftM _) fun _ => local_perform _
        · exact local_pure ()
  | product =>
    exact local_bind (local_bool _) fun _ => local_bind (local_bool _) fun _ =>
      local_bind (local_inputShape 0) fun _ => local_bind (local_inputShape 1) fun _ =>
      local_bind (local_liftM _) fun _ => local_bind (local_perform _) fun _ => local_bothValues
  | convert =>
    exact local_bind (local_read fun _ _ h => congrArg
        (fun s : Scene => s.string "destination_type") h) fun _ =>
      local_bind (local_liftM _) fun _ => local_bind (local_inputShape 0) fun _ =>
      local_bind (local_perform _) fun _ => local_bind (local_inputValue 0) fun _ =>
      local_setOutputValue? 0 _
  | proposals =>
    refine local_bind (local_int _) fun stride => local_bind local_replaceScale fun _ => ?_
    split
    · exact local_bind (local_int _) fun _ => local_perform _
    · exact local_bind (local_read fun _ _ h => congrArg (fun s : Scene => Except.ok s.name) h)
        fun _ => local_bind (local_say _ _) fun _ => local_setOutputsUnknown
  | queue kind => exact local_setOutputsUnknown
  | unary kind f =>
    exact local_bind (local_inputShape 0) fun _ => local_bind (local_perform _) fun _ =>
      local_bind (local_inputValue 0) fun _ => local_setOutputValue? 0 _
  | binary kind f =>
    exact local_bind (local_inputShape 0) fun _ => local_bind (local_inputShape 1) fun _ =>
      local_bind (local_liftM _) fun _ => local_bind (local_perform _) fun _ =>
      local_bind (local_inputValue 0) fun _ => local_bind (local_inputValue 1) fun _ =>
      local_bind (local_liftM _) fun _ => local_setOutputValue? 0 _

lemma Registry.local_standard : Registry.standard.Local where
  entry he := (standardRule_of_mem (Registry.mem_of_find?_standard he).1).local
  named := by
    intro name rule h
    have h' : ((Dict.empty : Dict Rule).insert "identity" Rules.identity).find? name = some rule :=
      h
    rw [Dict.find?_insert] at h'
    split at h'
    · cases h'
      exact StandardRule.identity.local
    · cases h'

/-! ### What is written is safe -/

lemma Attribute.bind_toTensor? {a : Option Attribute} {t : Tensor} :
    a.bind (·.toTensor?) = some t ↔ a = some (.tensor t) := by
  constructor
  · intro h
    obtain ⟨value, rfl, hread⟩ := Option.bind_eq_some_iff.1 h
    cases value <;> cases hread
    rfl
  · rintro rfl
    rfl

/-- The standard rules write what is safe. Only `unsqueeze` writes to an input. -/
lemma StandardRule.safe {kind : String} {rule : Rule} (h : StandardRule kind rule) {s : Scene}
    (hs : s.Shaped) {u : Unit} {ws : List Write} (hev : rule.eval s = .ok (u, ws)) : Safe s ws := by
  cases h with
  | parameter =>
    obtain ⟨shape, -, -, rfl⟩ := eval_parameter.1 hev
    exact safe_of_forall (by simp)
  | constant =>
    obtain ⟨t, -, rfl⟩ := eval_constant.1 hev
    exact safe_of_forall (by simp)
  | output =>
    obtain rfl := eval_output.1 hev
    exact safe_of_forall (by simp)
  | identity =>
    obtain ⟨a, v, -, -, -, rfl⟩ := eval_identity.1 hev
    exact safe_shaped 0 a v
  | reshape =>
    obtain ⟨zero, a, pattern?, -, -, -, hrest⟩ := eval_reshape.1 hev
    rcases pattern? with _ | pattern
    · obtain ⟨b, -, rfl⟩ := hrest
      exact safe_ranked _
    · obtain ⟨shape, x, v, -, -, -, -, rfl⟩ := hrest
      exact safe_shaped 0 shape v
  | unsqueeze =>
    obtain ⟨a, axes?, -, haxes, hrest⟩ := eval_unsqueeze.1 hev
    rcases axes? with _ | axes
    · obtain ⟨b, r, -, -, rfl⟩ := hrest
      exact safe_ranked r
    · obtain ⟨shape, normalized, wsAxes, x, v, -, hwrites, -, -, -, rfl⟩ := hrest
      refine Safe.append ?_ (safe_shaped 0 shape v)
      unfold axesWrites at hwrites
      split at hwrites
      · cases hwrites
        exact safe_of_forall (by simp)
      · obtain ⟨shared, -, hwrites⟩ := bind_eq_ok.1 hwrites
        split at hwrites
        · cases hwrites
          exact safe_of_forall (by simp)
        · -- the axes are given back in their shape
          obtain ⟨g, hg, hwrites⟩ := bind_eq_ok.1 hwrites
          cases hwrites
          have hgrid := Grid.shape_ofCells hg
          intro p t f hw hf
          obtain ⟨rfl, rfl⟩ := Write.inputValue.inj (List.mem_singleton.1 hw)
          obtain ⟨f', hf', hdims⟩ := Scene.inputShape_eq_ok.1 (hs.value haxes)
          rw [hf, Except.ok.injEq] at hf'
          rw [hf', hdims]
          exact congrArg (fun l => some (List.map Int.ofNat l)) hgrid.symm
  | gather =>
    obtain ⟨a, b, axis', axis, x, y, v, -, -, -, -, -, -, -, -, -, -, rfl⟩ := eval_gather.1 hev
    exact safe_shaped 0 b v
  | sparseReshape =>
    obtain ⟨a, rows, columns, b, rank, input?, new?, -, -, -, -, -, -, -, hrest⟩ :=
      eval_sparseReshape.1 hev
    rcases input? with _ | input <;> rcases new? with _ | new
    · obtain ⟨-, rfl⟩ := hrest
      exact safe_of_forall (by simp)
    · obtain ⟨-, rfl⟩ := hrest
      exact safe_of_forall (by simp)
    · obtain ⟨-, rfl⟩ := hrest
      exact safe_of_forall (by simp)
    · obtain ⟨output, x, v, -, -, -, -, rfl⟩ := hrest
      exact safe_of_forall (by cases v <;> simp [sparseWrites])
  | product =>
    obtain ⟨tA, tB, a, b, shape, x, y, v, -, -, -, -, -, -, -, -, -, rfl⟩ := eval_product.1 hev
    exact safe_shaped 0 shape v
  | convert =>
    obtain ⟨name, type, a, v, -, -, -, -, -, rfl⟩ := eval_convert.1 hev
    exact safe_shaped 0 a _
  | proposals =>
    obtain ⟨stride, wsScale, -, hscale, hrest⟩ := eval_proposals.1 hev
    have hsafe : Safe s wsScale := by
      unfold scaleWrites at hscale
      split at hscale
      · obtain ⟨texts, -, rfl⟩ := map_eq_ok.1 hscale
        exact safe_of_forall (by simp)
      · cases hscale
        exact safe_of_forall (by simp)
    split at hrest
    · obtain ⟨n, -, -, rfl⟩ := hrest
      exact hsafe.append (safe_of_forall (by simp))
    · rw [hrest]
      exact hsafe.append (safe_unknowns _)
  | queue kind =>
    rw [eval_queue.1 hev]
    exact safe_unknowns _
  | unary kind f =>
    obtain ⟨a, v, -, -, -, rfl⟩ := eval_unary.1 hev
    exact safe_shaped 0 a _
  | binary kind f =>
    obtain ⟨a, b, shape, x, y, v, -, -, -, -, -, -, -, rfl⟩ := eval_binary.1 hev
    exact safe_shaped 0 shape v

/-! ### Verdicts -/

/-- The scene with the attributes that hold by default. -/
def Scene.filled (s : Scene) (e : OpEntry) : Scene :=
  { s with attributes := e.defaults.union s.attributes }

lemma Scene.attr?_filled (s : Scene) (e : OpEntry) (name : String) :
    (s.filled e).attr? name = (s.attributes.find? name).or (e.defaults.find? name) :=
  Dict.find?_union ..

/-- The rule of an operation that names no rule of its own. -/
lemma Registry.ruleOf_standard {e : OpEntry} (he : e ∈ OpEntry.standard) {attributes : Attributes}
    (hs : attributes.find? "infer" = none) :
    standard.ruleOf e (e.defaults.union attributes) = e.rule := by
  unfold ruleOf
  rw [Dict.find?_union, hs, OpEntry.infer_of_mem he]
  rfl

/-- What the standard rules make of an operation that names no rule of its own. -/
lemma Registry.verdict_standard {kind : String} {s : Scene} {ws : List Write}
    (hs : s.attributes.find? "infer" = none) : standard.verdict kind s = .ok ws ↔
      ∃ e ∈ OpEntry.standard, standard.find? kind = some e ∧
        (e.required.find? fun name => !s.attributes.contains name) = none ∧
        if s.hasUnknownInput then ws = s.outputPorts.map .outputUnknown
        else e.rule.eval (s.filled e) = .ok ((), ws) := by
  rw [verdict_ok_iff]
  -- an entry of the registry, by its rule
  have hby : ∀ e, e ∈ OpEntry.standard → (standard.verdictBy e s = .ok ws ↔
      (e.required.find? fun name => !s.attributes.contains name) = none ∧
        if s.hasUnknownInput then ws = s.outputPorts.map .outputUnknown
        else e.rule.eval (s.filled e) = .ok ((), ws)) := by
    intro e he
    unfold verdictBy
    rcases hm : e.required.find? fun name => !s.attributes.contains name with _ | missing
    · simp only [true_and, ruleOf_standard he hs]
      show ((if s.hasUnknownInput then RuleM.setOutputsUnknown else e.rule).eval
        (s.filled e)).map (·.2) = .ok ws ↔ _
      split
      · rw [RuleM.eval_setOutputsUnknown]
        show Except.ok (s.outputPorts.map Write.outputUnknown) = .ok ws ↔ _
        rw [Except.ok.injEq, eq_comm]
      · rw [map_eq_ok]
        exact ⟨fun ⟨_, hev, hws⟩ => hws ▸ hev, fun hev => ⟨_, hev, rfl⟩⟩
    · simp
  constructor
  · rintro ⟨e, he, hv⟩
    have hmem := (mem_of_find?_standard he).1
    exact ⟨e, hmem, he, (hby e hmem).1 hv⟩
  · rintro ⟨e, hmem, he, hv⟩
    exact ⟨e, he, (hby e hmem).2 hv⟩

/-- The verdicts of the standard rules are safe. -/
lemma Registry.safe_verdict {kind : String} {s : Scene} {ws : List Write} (hshaped : s.Shaped)
    (hs : s.attributes.find? "infer" = none) (hv : standard.verdict kind s = .ok ws) :
    Safe s ws := by
  obtain ⟨e, he, -, -, hws⟩ := (verdict_standard hs).1 hv
  split at hws
  · rw [hws]
    exact safe_unknowns _
  · exact (standardRule_of_mem he).safe (s := s.filled e) hshaped hws

/-! ### Operations of one kind -/

/-- The entry has no attributes by default. -/
lemma Scene.attr?_filled_of_empty {s : Scene} {e : OpEntry} (he : e.defaults = .empty)
    (name : String) : (s.filled e).attr? name = s.attributes.find? name := by
  rw [s.attr?_filled, he]
  exact Option.or_none

lemma Scene.typed_eq_ok {α : Type} {s : Scene} {name : String} {kind : AttributeKind}
    {read : Attribute → Option α} {a : α} :
    s.typed name kind read = .ok a ↔ (s.attr? name).bind read = some a := by
  unfold Scene.typed Scene.attr
  rcases s.attr? name with _ | x
  · simp
  · simp only [ok_bind, Option.bind_some]
    rcases read x with _ | y
    · simp
    · simp [pure, Except.pure]

namespace Registry

variable {kind : String} {s : Scene} {ws : List Write} {a : Shape} {p : Nat} {t : Tensor}

/-- What an operation of a known entry makes of its scene. -/
lemma verdict_of_find? {e : OpEntry} (he : OpEntry.standard.reverse.find? (·.kind = kind) = some e)
    (hs : s.attributes.find? "infer" = none) : standard.verdict kind s = .ok ws ↔
      (e.required.find? fun name => !s.attributes.contains name) = none ∧
        if s.hasUnknownInput then ws = s.outputPorts.map .outputUnknown
        else e.rule.eval (s.filled e) = .ok ((), ws) := by
  have hfind : standard.find? kind = some e := (find?_standard kind).trans he
  rw [verdict_standard hs]
  constructor
  · rintro ⟨e', -, hfind', hv⟩
    obtain rfl := Option.some.inj (hfind.symm.trans hfind')
    exact hv
  · exact fun hv => ⟨e, (mem_of_find?_standard hfind).1, hfind, hv⟩

/-- What an operation makes of its scene when it has the attributes that its entry asks for and all
shapes of its inputs are known. -/
lemma verdict_of_required {e : OpEntry}
    (he : OpEntry.standard.reverse.find? (·.kind = kind) = some e)
    (hs : s.attributes.find? "infer" = none)
    (hrequired : (e.required.find? fun name => !s.attributes.contains name) = none)
    (hknown : s.hasUnknownInput = false) :
    standard.verdict kind s = (e.rule.eval (s.filled e)).map (·.2) := by
  have hfind : standard.find? kind = some e := (find?_standard kind).trans he
  unfold verdict lookup
  rw [hfind, ok_bind, verdictBy, hrequired]
  simp only [ruleOf_standard (mem_of_find?_standard hfind).1 hs]
  show ((if s.hasUnknownInput then RuleM.setOutputsUnknown else e.rule).eval (s.filled e)).map _ = _
  rw [hknown]
  rfl

/-- A required attribute is there when it reads as something. -/
lemma required_of_bind {α : Type} {read : Attribute → Option α} {name : String} {a : α}
    (ha : (s.attributes.find? name).bind read = some a) :
    ([name].find? fun name => !s.attributes.contains name) = none := by
  obtain ⟨x, hx, -⟩ := Option.bind_eq_some_iff.1 ha
  simp [Dict.contains, hx]

/-- A parameter writes the shape that it is given. -/
lemma verdict_parameter (hs : s.attributes.find? "infer" = none)
    (ha : (s.attributes.find? "shape").bind (·.toInts?) = some a) :
    standard.verdict "Parameter" s = .ok ws ↔
      if s.hasUnknownInput then ws = s.outputPorts.map .outputUnknown
      else a.Valid ∧ ws = [.outputShape 0 a] := by
  rw [verdict_of_find? (e := (OpEntry.ofRule "Parameter" parameter).requiring ["shape"])
    (by rfl) hs]
  refine (and_iff_right (required_of_bind ha)).trans ?_
  split
  · exact Iff.rfl
  · refine eval_parameter.trans ?_
    have hread : (s.filled ((OpEntry.ofRule "Parameter" parameter).requiring ["shape"])).ints
        "shape" = .ok a := Scene.typed_eq_ok.2 (by rwa [Scene.attr?_filled_of_empty rfl])
    constructor
    · rintro ⟨shape, hshape, hws⟩
      obtain rfl := Except.ok.inj (hread.symm.trans hshape)
      exact hws
    · exact fun hws => ⟨a, hread, hws⟩

/-- A constant writes the value that it holds. -/
lemma verdict_of_value (hvalue : s.attributes.find? "value" = some (.tensor t))
    (hs : s.attributes.find? "infer" = none) : standard.verdict "Const" s =
      .ok (if s.hasUnknownInput then s.outputPorts.map .outputUnknown else [.outputValue 0 t]) := by
  have hread := Attribute.bind_toTensor?.2 hvalue
  refine (verdict_of_find? (e := (OpEntry.ofRule "Const" constant).requiring ["value"]) (by rfl)
    hs).2 ⟨required_of_bind hread, ?_⟩
  split
  · rfl
  · exact eval_constant.2 ⟨t, by rwa [Scene.attr?_filled_of_empty rfl], rfl⟩

/-- What a constant writes: that nothing is known of its outputs, or its value. -/
lemma verdict_const_cases (hs : s.attributes.find? "infer" = none)
    (hv : standard.verdict "Const" s = .ok ws) : ws = s.outputPorts.map .outputUnknown ∨
      ∃ t, s.attributes.find? "value" = some (.tensor t) ∧ ws = [.outputValue 0 t] := by
  obtain ⟨-, hws⟩ := (verdict_of_find? (e := (OpEntry.ofRule "Const" constant).requiring ["value"])
    (by rfl) hs).1 hv
  split at hws
  · exact Or.inl hws
  · obtain ⟨t, ht, rfl⟩ := eval_constant.1 hws
    rw [Scene.attr?_filled_of_empty rfl] at ht
    exact Or.inr ⟨t, Attribute.bind_toTensor?.1 ht, rfl⟩

lemma verdict_identity (hs : s.attributes.find? "infer" = none)
    (hv : standard.verdict "Identity" s = .ok ws) :
    s.hasUnknownInput = true ∧ ws = s.outputPorts.map .outputUnknown ∨
      ∃ a v, s.inputShape 0 = .ok a ∧ s.inputValue 0 = .ok v ∧ ws = shaped 0 a v := by
  obtain ⟨-, hws⟩ := (verdict_of_find? (e := .ofRule "Identity" identity) (by rfl) hs).1 hv
  split at hws
  · next hu => exact Or.inl ⟨hu, hws⟩
  · obtain ⟨a, v, ha, -, hx, rfl⟩ := eval_identity.1 hws
    exact Or.inr ⟨a, v, ha, hx, rfl⟩

/-- An operation that does not write that nothing is known of its outputs knows its inputs. -/
lemma hasUnknownInput_of_ne (hs : s.attributes.find? "infer" = none)
    (hv : standard.verdict kind s = .ok ws) (hws : ws ≠ s.outputPorts.map .outputUnknown) :
    s.hasUnknownInput = false := by
  obtain ⟨e, -, -, -, hrest⟩ := (verdict_standard hs).1 hv
  split at hrest
  · exact absurd hrest hws
  · next hu => exact Bool.eq_false_iff.2 hu

lemma hasUnknownInput_of_value (hs : s.attributes.find? "infer" = none)
    (hv : standard.verdict kind s = .ok [.outputValue p t]) : s.hasUnknownInput = false := by
  refine hasUnknownInput_of_ne hs hv fun heq => ?_
  have hmem : Write.outputValue p t ∈ s.outputPorts.map .outputUnknown :=
    heq ▸ List.mem_singleton.2 rfl
  obtain ⟨q, -, hq⟩ := List.mem_map.1 hmem
  cases hq

end Registry

/-! ### Graphs -/

namespace Graph

variable {g : Graph}

/-- No operation names a rule of its own. -/
def NoOverrides (g : Graph) : Prop :=
  ∀ {id : NodeId} {o : Operation}, g.op? id = some o → o.attributes.find? "infer" = none

/-- Every value that is known has the shape that is known. -/
def Shaped (g : Graph) : Prop :=
  ∀ {d : NodeId} {f : Fact} {t : Tensor}, g.fact? d = some f → f.value = some t →
    f.shape = some t.dims

instance : Decidable g.NoOverrides := decidable_of_iff' _ forall_op_iff

instance : Decidable g.Shaped :=
  decidable_of_iff (∀ p ∈ g.entries, ∀ f ∈ p.2.fact?, ∀ t ∈ f.value, f.shape = some t.dims)
    (forall_fact_iff.symm.trans ⟨fun h _ _ _ hf => h hf _, fun h _ _ hf _ => h hf⟩)

end Graph

end TensorGraph
