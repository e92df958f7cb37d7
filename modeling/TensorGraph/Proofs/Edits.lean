import Mathlib.Tactic.Common
import TensorGraph.Inference.Write

/-!
How edits are reasoned about.

`Edit.Keeps P x` says that the edit `x` keeps a property of graphs, whether it succeeds or
fails; it holds of a program when it holds of its parts. `Edit.Gives x g a h` says that `x`
succeeds on `g` with the result `a` and leaves `h`, `Edit.Fails x g e` that it fails with `e`; they
are taken apart at each bind.
-/

namespace TensorGraph

variable {α β : Type}

@[simp] lemma ok_bind (a : α) (f : α → Except Error β) : (Except.ok a >>= f) = f a := rfl

@[simp] lemma error_bind (e : Error) (f : α → Except Error β) :
    (Except.error e >>= f) = .error e := rfl

lemma map_eq_ok {x : Except Error α} {f : α → β} {b : β} :
    x.map f = .ok b ↔ ∃ a, x = .ok a ∧ f a = b := by
  cases x <;> simp [Except.map]

lemma map_eq_error {x : Except Error α} {f : α → β} {e : Error} :
    x.map f = .error e ↔ x = .error e := by
  cases x <;> simp [Except.map]

lemma bind_eq_ok {x : Except Error α} {f : α → Except Error β} {b : β} :
    (x >>= f) = .ok b ↔ ∃ a, x = .ok a ∧ f a = .ok b := by
  cases x <;> simp

lemma mapM_eq_ok {l : List α} {f : α → Except Error β} {u : α → β}
    (h : ∀ a ∈ l, f a = .ok (u a)) : l.mapM f = .ok (l.map u) := by
  induction l with
  | nil => rfl
  | cons a l ih =>
    rw [List.mapM_cons, h a (List.mem_cons_self ..), ok_bind,
      ih fun b hb => h b (List.mem_cons_of_mem a hb)]
    rfl

/-- A traversal that fails has failed at one of its steps. -/
lemma exists_of_mapM_eq_error {l : List α} {f : α → Except Error β} {e : Error}
    (h : l.mapM f = .error e) : ∃ a ∈ l, f a = .error e := by
  induction l with
  | nil => cases h
  | cons a l ih =>
    rw [List.mapM_cons] at h
    rcases ha : f a with e' | b
    · rw [ha] at h
      cases h
      exact ⟨a, List.mem_cons_self .., ha⟩
    · rw [ha, ok_bind] at h
      rcases hl : l.mapM f with e' | bs
      · rw [hl] at h
        cases h
        obtain ⟨c, hc, hce⟩ := ih hl
        exact ⟨c, List.mem_cons_of_mem a hc, hce⟩
      · rw [hl] at h
        cases h

/-- A result can be compared with what is expected where errors cannot. -/
lemma toOption_eq_some {x : Except Error α} {a : α} : x.toOption = some a ↔ x = .ok a := by
  cases x <;> simp [Except.toOption]

namespace Edit

variable {P : Graph → Prop} {g h : Graph}

/-! ### Lifted computations -/

@[simp] lemma run_liftM (x : Except Error α) (g : Graph) :
    (liftM x : Edit α).run g = ⟨x, g, []⟩ := rfl

@[simp] lemma run_monadLift (x : Except Error α) (g : Graph) :
    (MonadLift.monadLift x : Edit α).run g = ⟨x, g, []⟩ := rfl

lemma run_map (f : α → β) (x : Edit α) (g : Graph) :
    (f <$> x).run g = ⟨(x.run g).result.map f, (x.run g).graph, (x.run g).log⟩ := by
  rw [map_eq_pure_bind]
  rcases hr : (x.run g).result with e | a
  · rw [run_bind_of_error hr]
    rfl
  · rw [run_bind_of_ok hr]
    show (⟨_, _, _ ++ []⟩ : Outcome β) = _
    rw [List.append_nil]
    rfl

/-! ### Properties that edits keep -/

/-- The edit keeps a property of graphs, also when it fails. -/
def Keeps (P : Graph → Prop) (x : Edit α) : Prop := ∀ g, P g → P (x.run g).graph

lemma keeps_pure (a : α) : Keeps P (pure a) := fun _ h => h

lemma keeps_fail (e : Error) : Keeps P (fail e : Edit α) := fun _ h => h

lemma keeps_current : Keeps P current := fun _ h => h

lemma keeps_query (f : Graph → Except Error α) : Keeps P (query f) := fun _ h => h

lemma keeps_note (level : Level) (text : String) : Keeps P (note level text) := fun _ h => h

lemma keeps_lift (x : Except Error α) : Keeps P (liftM x : Edit α) := fun _ h => h

lemma graph_bind (x : Edit α) (f : α → Edit β) (g : Graph) :
    ((x >>= f).run g).graph =
      match (x.run g).result with
      | .ok a => ((f a).run (x.run g).graph).graph
      | .error _ => (x.run g).graph := by
  rcases hx : (x.run g).result with e | a
  · rw [run_bind_of_error hx]
  · rw [run_bind_of_ok hx]

lemma keeps_bind {x : Edit α} {f : α → Edit β} (hx : Keeps P x) (hf : ∀ a, Keeps P (f a)) :
    Keeps P (x >>= f) := by
  intro g hg
  rw [graph_bind]
  split
  · exact hf _ _ (hx g hg)
  · exact hx g hg

lemma keeps_map {x : Edit α} (f : α → β) (hx : Keeps P x) : Keeps P (f <$> x) := by
  intro g hg
  rw [run_map]
  exact hx g hg

lemma keeps_discard {x : Edit α} (hx : Keeps P x) : Keeps P (discard x) := keeps_map _ hx

lemma keeps_within {context : String} {x : Edit α} (hx : Keeps P x) :
    Keeps P (within context x) := hx

lemma keeps_attempt {x : Edit α} (hx : Keeps P x) : Keeps P x.attempt := hx

lemma keeps_ite {c : Prop} [Decidable c] {x y : Edit α} (hx : c → Keeps P x)
    (hy : ¬ c → Keeps P y) : Keeps P (if c then x else y) := by
  split
  · exact hx ‹_›
  · exact hy ‹_›

lemma keeps_forM {l : List α} {f : α → Edit Unit} (hf : ∀ a ∈ l, Keeps P (f a)) :
    Keeps P (l.forM f) := by
  induction l with
  | nil => exact keeps_pure ()
  | cons a l ih =>
    refine keeps_bind (hf a (List.mem_cons_self ..)) fun _ => ?_
    exact ih fun b hb => hf b (List.mem_cons_of_mem a hb)

/-- The edit leaves the graph as it is. -/
def Reads (x : Edit α) : Prop := ∀ g, (x.run g).graph = g

/-- The edit leaves the graph as it is when it fails. -/
def Atomic (x : Edit α) : Prop := ∀ g e, (x.run g).result = .error e → (x.run g).graph = g

lemma atomic_bind {x : Edit α} {f : α → Edit β} (hx : Reads x) (hf : ∀ a, Atomic (f a)) :
    Atomic (x >>= f) := by
  intro g e he
  rcases hr : (x.run g).result with e' | a
  · rw [run_bind_of_error hr]
    exact hx g
  · rw [run_bind_of_ok hr] at he ⊢
    rw [hx g] at he ⊢
    exact hf a g e he

lemma atomic_change (f : Graph → Graph) (a : α) : Atomic (change f >>= fun _ => pure a) := by
  intro g e he
  cases he

lemma atomic_change_only (f : Graph → Graph) : Atomic (change f) := by
  intro g e he
  cases he

lemma reads_current : Reads current := fun _ => rfl

lemma reads_query (f : Graph → Except Error α) : Reads (query f) := fun _ => rfl

lemma reads_lift (x : Except Error α) : Reads (liftM x : Edit α) := fun _ => rfl

/-! ### Successful runs -/

/-- The edit succeeds on `g` with the result `a` and leaves `h`. -/
def Gives (x : Edit α) (g : Graph) (a : α) (h : Graph) : Prop :=
  (x.run g).result = .ok a ∧ (x.run g).graph = h

variable {a : α} {b : β}

@[simp] lemma gives_pure {c : α} : Gives (pure c) g a h ↔ c = a ∧ g = h := by
  simp [Gives]

@[simp] lemma gives_fail {e : Error} : ¬ Gives (fail e) g a h := by
  simp [Gives]

@[simp] lemma gives_current {c : Graph} : Gives current g c h ↔ g = c ∧ g = h := by
  simp [Gives]

@[simp] lemma gives_query {f : Graph → Except Error α} :
    Gives (query f) g a h ↔ f g = .ok a ∧ g = h := by
  simp [Gives]

@[simp] lemma gives_lift {x : Except Error α} :
    Gives (liftM x : Edit α) g a h ↔ x = .ok a ∧ g = h := by
  simp [Gives]

@[simp] lemma gives_note {level : Level} {text : String} {u : Unit} :
    Gives (note level text) g u h ↔ g = h := by
  simp [Gives]

@[simp] lemma gives_change {f : Graph → Graph} {u : Unit} :
    Gives (change f) g u h ↔ { f g with revision := g.revision + 1 } = h := by
  simp [Gives]

@[simp] lemma gives_bind {x : Edit α} {f : α → Edit β} :
    Gives (x >>= f) g b h ↔ ∃ a g', Gives x g a g' ∧ Gives (f a) g' b h := by
  unfold Gives
  constructor
  · rintro ⟨hr, hh⟩
    obtain ⟨a, ha, hb⟩ := result_bind_eq_ok.1 hr
    rw [run_bind_of_ok ha] at hh
    exact ⟨a, _, ⟨ha, rfl⟩, hb, hh⟩
  · rintro ⟨a, g', ⟨ha, rfl⟩, hb, hh⟩
    rw [run_bind_of_ok ha]
    exact ⟨hb, hh⟩

lemma gives_query_bind {f : Graph → Except Error α} {x : α → Edit β} (hf : f g = .ok a)
    (hx : Gives (x a) g b h) : Gives (query f >>= x) g b h :=
  gives_bind.2 ⟨a, g, gives_query.2 ⟨hf, rfl⟩, hx⟩

/-- A loop of which no step changes the graph. -/
lemma gives_forM_self {l : List α} {f : α → Edit Unit} (hf : ∀ a ∈ l, Gives (f a) g () g) :
    Gives (l.forM f) g () g := by
  induction l with
  | nil => exact ⟨rfl, rfl⟩
  | cons a l ih =>
    exact gives_bind.2 ⟨(), g, hf a (List.mem_cons_self ..),
      ih fun b hb => hf b (List.mem_cons_of_mem a hb)⟩

@[simp] lemma gives_map {f : α → β} {x : Edit α} :
    Gives (f <$> x) g b h ↔ ∃ a, Gives x g a h ∧ f a = b := by
  rw [map_eq_pure_bind, gives_bind]
  simp only [gives_pure]
  constructor
  · rintro ⟨a, g', hx, ha, rfl⟩
    exact ⟨a, hx, ha⟩
  · rintro ⟨a, hx, ha⟩
    exact ⟨a, h, hx, ha, rfl⟩

@[simp] lemma gives_discard {x : Edit α} {u : Unit} :
    Gives (discard x) g u h ↔ ∃ a, Gives x g a h := by
  show Gives (_ <$> x) g u h ↔ _
  simp

@[simp] lemma gives_within {context : String} {x : Edit α} :
    Gives (within context x) g a h ↔ Gives x g a h := by
  unfold Gives
  rw [run_within]
  rcases (x.run g).result with e | c <;> simp [Except.mapError]

lemma Gives.keeps {x : Edit α} (hx : Gives x g a h) (hk : Keeps P x) (hg : P g) : P h := by
  rw [← hx.2]
  exact hk g hg

/-- What holds after the first part fails, and after the second part whatever the first gives,
holds after both. -/
lemma graph_bind_of {x : Edit α} {f : α → Edit β} (hx : P (x.run g).graph)
    (hf : ∀ a h, Gives x g a h → P ((f a).run h).graph) : P ((x >>= f).run g).graph := by
  rw [graph_bind]
  split
  · next a ha => exact hf a _ ⟨ha, rfl⟩
  · exact hx

lemma graph_reads_bind_of {x : Edit α} {f : α → Edit β} (hx : Reads x) (hg : P g)
    (hf : ∀ a, (x.run g).result = .ok a → P ((f a).run g).graph) :
    P ((x >>= f).run g).graph := by
  refine graph_bind_of ?_ ?_
  · rw [hx g]
    exact hg
  · rintro a h ⟨ha, rfl⟩
    rw [hx g]
    exact hf a ha

/-- An edit that changes nothing when it fails keeps what its successful runs keep. -/
lemma Atomic.keeps {x : Edit α} (hx : Atomic x) (h : ∀ g a h, P g → Gives x g a h → P h) :
    Keeps P x := by
  intro g hg
  rcases hr : (x.run g).result with e | a
  · rw [hx g e hr]
    exact hg
  · exact h g a _ hg ⟨hr, rfl⟩

lemma Gives.unique {x : Edit α} {c : α} {k : Graph} (hx : Gives x g a h) (hy : Gives x g c k) :
    a = c ∧ h = k := by
  obtain ⟨hr, rfl⟩ := hx
  obtain ⟨hr', rfl⟩ := hy
  rw [hr] at hr'
  exact ⟨Except.ok.inj hr', rfl⟩

/-! ### Failed runs -/

/-- The edit fails on `g` with the error `e`. -/
def Fails (x : Edit α) (g : Graph) (e : Error) : Prop := (x.run g).result = .error e

variable {e : Error}

lemma Gives.not_fails {x : Edit α} (hx : Gives x g a h) : ¬ Fails x g e := by
  intro he
  cases hx.1.symm.trans he

lemma Fails.unique {x : Edit α} {e' : Error} (he : Fails x g e) (he' : Fails x g e') : e = e' :=
  Except.error.inj (he.symm.trans he')

@[simp] lemma fails_pure {c : α} : ¬ Fails (pure c) g e := by
  simp [Fails]

@[simp] lemma fails_current : ¬ Fails current g e := by
  simp [Fails]

@[simp] lemma fails_query {f : Graph → Except Error α} : Fails (query f) g e ↔ f g = .error e := by
  simp [Fails]

@[simp] lemma fails_lift {x : Except Error α} : Fails (liftM x : Edit α) g e ↔ x = .error e := by
  simp [Fails]

@[simp] lemma fails_note {level : Level} {text : String} : ¬ Fails (note level text) g e := by
  simp [Fails]

@[simp] lemma fails_bind {x : Edit α} {f : α → Edit β} :
    Fails (x >>= f) g e ↔ Fails x g e ∨ ∃ a h, Gives x g a h ∧ Fails (f a) h e := by
  unfold Fails Gives
  rcases hr : (x.run g).result with e' | a
  · rw [run_bind_of_error hr]
    simp
  · rw [run_bind_of_ok hr]
    simp

/-- The edit fails on `g` with the error `e` and leaves `h`. -/
def Stops (x : Edit α) (g : Graph) (e : Error) (h : Graph) : Prop :=
  Fails x g e ∧ (x.run g).graph = h

lemma fails_iff_stops {x : Edit α} : Fails x g e ↔ ∃ h, Stops x g e h :=
  ⟨fun hx => ⟨_, hx, rfl⟩, fun ⟨_, hx⟩ => hx.1⟩

@[simp] lemma stops_pure {c : α} : ¬ Stops (pure c) g e h := fun hx => fails_pure hx.1

@[simp] lemma stops_current : ¬ Stops current g e h := fun hx => fails_current hx.1

@[simp] lemma stops_lift {x : Except Error α} :
    Stops (liftM x : Edit α) g e h ↔ x = .error e ∧ g = h := by
  simp [Stops]

@[simp] lemma stops_query {f : Graph → Except Error α} :
    Stops (query f) g e h ↔ f g = .error e ∧ g = h := by
  simp [Stops]

@[simp] lemma stops_note {level : Level} {text : String} : ¬ Stops (note level text) g e h :=
  fun hx => fails_note hx.1

@[simp] lemma stops_bind {x : Edit α} {f : α → Edit β} :
    Stops (x >>= f) g e h ↔ Stops x g e h ∨ ∃ a k, Gives x g a k ∧ Stops (f a) k e h := by
  unfold Stops Fails Gives
  rcases hr : (x.run g).result with e' | a
  · rw [run_bind_of_error hr]
    simp
  · rw [run_bind_of_ok hr]
    simp

@[simp] lemma stops_map {f : α → β} {x : Edit α} : Stops (f <$> x) g e h ↔ Stops x g e h := by
  unfold Stops Fails
  rw [run_map, map_eq_error]

@[simp] lemma stops_discard {x : Edit α} : Stops (discard x) g e h ↔ Stops x g e h := stops_map

lemma Stops.eq_of_atomic {x : Edit α} (hx : Stops x g e h) (ha : Atomic x) : h = g :=
  hx.2.symm.trans (ha g e hx.1)

/-- Where the first part succeeds, it is the rest that fails. -/
lemma Gives.stops_bind {x : Edit α} {f : α → Edit β} {k : Graph} (hx : Gives x g a k) :
    Stops (x >>= f) g e h ↔ Stops (f a) k e h := by
  rw [Edit.stops_bind]
  refine ⟨?_, fun hs => .inr ⟨a, k, hx, hs⟩⟩
  rintro (hs | ⟨_, _, hx', hs⟩)
  · exact absurd hs.1 hx.not_fails
  · obtain ⟨rfl, rfl⟩ := hx.unique hx'
    exact hs

lemma Stops.of_query {f : Graph → Except Error α} {x : α → Edit β}
    (hx : Stops (query f >>= x) g e h) (hf : f g = .ok a) : Stops (x a) g e h := by
  obtain ⟨_, _, hquery, hx⟩ := (stops_bind.1 hx).resolve_left (by simp [hf])
  obtain ⟨ha, rfl⟩ := gives_query.1 hquery
  cases hf.symm.trans ha
  exact hx

/-- A loop fails where its body fails, after what came before succeeded. -/
lemma fails_forM {l : List α} {f : α → Edit Unit} : Fails (l.forM f) g e ↔
    ∃ before a after h, l = before ++ a :: after ∧ Gives (before.forM f) g () h ∧
      Fails (f a) h e := by
  induction l generalizing g with
  | nil => simp [List.forM_nil]
  | cons b l ih =>
    show Fails (f b >>= fun _ => l.forM f) g e ↔ _
    rw [fails_bind]
    constructor
    · rintro (hfirst | ⟨_, k, hfirst, hrest⟩)
      · exact ⟨[], b, l, g, rfl, ⟨rfl, rfl⟩, hfirst⟩
      · obtain ⟨before, a, after, h, rfl, hbefore, ha⟩ := ih.1 hrest
        exact ⟨b :: before, a, after, h, rfl, gives_bind.2 ⟨_, k, hfirst, hbefore⟩, ha⟩
    · rintro ⟨_ | ⟨b', before⟩, a, after, h, heq, hbefore, ha⟩
      · obtain ⟨rfl, rfl⟩ := List.cons.inj heq
        obtain ⟨-, rfl⟩ := gives_pure.1 hbefore
        exact .inl ha
      · obtain ⟨rfl, rfl⟩ := List.cons.inj heq
        obtain ⟨_, k, hfirst, hrest⟩ := gives_bind.1 hbefore
        exact .inr ⟨_, k, hfirst, ih.2 ⟨before, a, after, h, rfl, hrest, ha⟩⟩

end Edit

end TensorGraph
