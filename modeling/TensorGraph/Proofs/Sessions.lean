import TensorGraph.Pipeline.Session
import TensorGraph.Proofs.Edits

/-!
How sessions are reasoned about.

A session keeps a property of graphs when it does so from every count. A pipeline keeps what its
transformations, the clean-up, inference and the entering of a stage keep. `Session.Ends` says what
a run comes to, whether it succeeds or fails, and is taken through the parts of a session.
-/

namespace TensorGraph

open Edit

variable {α β : Type} {P : Graph → Prop}

namespace Session

/-- The session keeps a property of graphs, also when it fails. -/
def Keeps (P : Graph → Prop) (x : Session α) : Prop := ∀ count, Edit.Keeps P (x.run count)

lemma run_bind (x : Session α) (f : α → Session β) (count : Nat) :
    (x >>= f).run count = do
      let (r, count) ← x.run count
      match r with
      | .ok a => (f a).run count
      | .error e => return (.error e, count) := by
  show ((x.run count : Edit _) >>= fun p => _) = _
  refine congrArg _ (funext fun p => ?_)
  obtain ⟨r, count⟩ := p
  cases r <;> rfl

lemma keeps_pure (a : α) : Keeps P (pure a) := fun _ => Edit.keeps_pure _

lemma keeps_bind {x : Session α} {f : α → Session β} (hx : Keeps P x) (hf : ∀ a, Keeps P (f a)) :
    Keeps P (x >>= f) := by
  intro count
  rw [run_bind]
  refine Edit.keeps_bind (hx count) fun p => ?_
  obtain ⟨r, count⟩ := p
  cases r with
  | error e => exact Edit.keeps_pure _
  | ok a => exact hf a count

/-- The second part needs to keep the property only for what the first part can give. -/
lemma keeps_bind_of {x : Session α} {f : α → Session β} (hx : Keeps P x)
    (hf : ∀ g count a count' h, Gives (x.run count) g (.ok a, count') h → Keeps P (f a)) :
    Keeps P (x >>= f) := by
  intro count g hg
  rw [run_bind]
  refine graph_bind_of (hx count g hg) fun p h hp => ?_
  have hh : P h := hp.keeps (hx count) hg
  obtain ⟨r, count'⟩ := p
  cases r with
  | error e => exact hh
  | ok a => exact hf g count a count' h hp count' h hh

lemma gives_lift {x : Edit α} {g h : Graph} {count count' : Nat} {r : Except Error α} :
    Gives ((Session.lift x).run count) g (r, count') h ↔
      (x.run g).result = r ∧ (x.run g).graph = h ∧ count = count' := by
  have hrun : ((Session.lift x).run count).run g =
      ⟨.ok ((x.run g).result, count), (x.run g).graph, (x.run g).log ++ []⟩ := rfl
  unfold Gives
  rw [hrun]
  simp only [Except.ok.injEq, Prod.mk.injEq]
  exact ⟨fun ⟨⟨hr, hc⟩, hh⟩ => ⟨hr, hh, hc⟩, fun ⟨hr, hh, hc⟩ => ⟨⟨hr, hc⟩, hh⟩⟩

lemma keeps_fail (e : Error) : Keeps P (Session.fail e : Session α) := fun _ => Edit.keeps_pure _

lemma keeps_lift {x : Edit α} (hx : Edit.Keeps P x) : Keeps P (Session.lift x) := fun _ =>
  Edit.keeps_bind (keeps_attempt hx) fun _ => Edit.keeps_pure _

lemma keeps_liftM {x : Edit α} (hx : Edit.Keeps P x) : Keeps P (liftM x : Session α) :=
  keeps_lift hx

lemma keeps_countChange : Keeps P countChange := fun _ => Edit.keeps_pure _

lemma keeps_count : Keeps P Session.count := fun _ => Edit.keeps_pure _

lemma keeps_within {context : String} {x : Session α} (hx : Keeps P x) :
    Keeps P (x.within context) := fun count =>
  Edit.keeps_bind (hx count) fun _ => Edit.keeps_pure _

lemma keeps_discard {x : Session α} (hx : Keeps P x) : Keeps P (discard x) := by
  show Keeps P ((fun _ => ()) <$> x)
  rw [map_eq_pure_bind]
  exact keeps_bind hx fun _ => keeps_pure _

lemma keeps_ite {c : Prop} [Decidable c] {x y : Session α} (hx : Keeps P x) (hy : Keeps P y) :
    Keeps P (if c then x else y) := by
  split
  · exact hx
  · exact hy

lemma keeps_forM {l : List α} {f : α → Session Unit} (hf : ∀ a ∈ l, Keeps P (f a)) :
    Keeps P (l.forM f) := by
  induction l with
  | nil => exact keeps_pure ()
  | cons a l ih =>
    refine keeps_bind (hf a (List.mem_cons_self ..)) fun _ => ?_
    exact ih fun b hb => hf b (List.mem_cons_of_mem a hb)

/-! ### Successful runs -/

/-- The session, started from some count, succeeds on `g` with the result `a` and leaves `h`. -/
def Gives (x : Session α) (g : Graph) (a : α) (h : Graph) : Prop :=
  ∃ count count', Edit.Gives (x.run count) g (.ok a, count') h

variable {g h : Graph} {a : α} {b : β}

lemma Gives.pure {c : α} (hx : Gives (pure c) g a h) : c = a ∧ g = h := by
  obtain ⟨count, count', hx⟩ := hx
  obtain ⟨heq, rfl⟩ := Edit.gives_pure.1 hx
  exact ⟨Except.ok.inj (congrArg Prod.fst heq), rfl⟩

lemma Gives.fail {e : Error} : ¬ Gives (Session.fail e) g a h := by
  rintro ⟨count, count', hx⟩
  cases congrArg Prod.fst (Edit.gives_pure.1 hx).1

lemma Gives.bind {x : Session α} {f : α → Session β} (hx : Gives (x >>= f) g b h) :
    ∃ a k, Gives x g a k ∧ Gives (f a) k b h := by
  obtain ⟨count, count', hx⟩ := hx
  rw [run_bind] at hx
  obtain ⟨⟨r, middle⟩, k, hfirst, hrest⟩ := Edit.gives_bind.1 hx
  cases r with
  | error e => cases congrArg Prod.fst (Edit.gives_pure.1 hrest).1
  | ok a => exact ⟨a, k, ⟨count, middle, hfirst⟩, middle, count', hrest⟩

lemma Gives.lift {x : Edit α} (hx : Gives (Session.lift x) g a h) : Edit.Gives x g a h := by
  obtain ⟨count, count', hx⟩ := hx
  obtain ⟨hr, hh, -⟩ := gives_lift.1 hx
  exact ⟨hr, hh⟩

lemma Gives.liftM {x : Edit α} (hx : Gives (liftM x : Session α) g a h) : Edit.Gives x g a h :=
  hx.lift

lemma Gives.within {context : String} {x : Session α} (hx : Gives (x.within context) g a h) :
    Gives x g a h := by
  obtain ⟨count, count', hx⟩ := hx
  obtain ⟨⟨r, middle⟩, k, hfirst, hrest⟩ := Edit.gives_bind.1 hx
  obtain ⟨heq, rfl⟩ := Edit.gives_pure.1 hrest
  cases r with
  | error e => cases congrArg Prod.fst heq
  | ok c =>
    obtain rfl := Except.ok.inj (congrArg Prod.fst heq)
    exact ⟨count, middle, hfirst⟩

lemma Gives.discard {x : Session α} {u : Unit} (hx : Gives (discard x) g u h) :
    ∃ a, Gives x g a h := by
  have hx : Gives ((fun _ => ()) <$> x) g u h := hx
  rw [map_eq_pure_bind] at hx
  obtain ⟨a, k, hfirst, hrest⟩ := hx.bind
  obtain ⟨-, rfl⟩ := hrest.pure
  exact ⟨a, hfirst⟩

/-! ### What runs end with -/

/-- Started from a count on `g`, the session ends with a result, a count and a graph of which `Q`
holds. -/
def Ends (x : Session α) (count : Nat) (g : Graph)
    (Q : Except Error α → Nat → Graph → Prop) : Prop :=
  ∃ r count' h, Edit.Gives (x.run count) g (r, count') h ∧ Q r count' h

variable {count count' : Nat} {Q R : Except Error α → Nat → Graph → Prop}
  {S : Except Error β → Nat → Graph → Prop}

lemma Ends.of_gives {x : Session α} (hx : Ends x count g Q) {r : Except Error α}
    (hr : Edit.Gives (x.run count) g (r, count') h) : Q r count' h := by
  obtain ⟨r', count'', h', hr', hq⟩ := hx
  obtain ⟨heq, rfl⟩ := hr.unique hr'
  cases heq
  exact hq

lemma Ends.mono {x : Session α} (hx : Ends x count g Q) (hq : ∀ r n k, Q r n k → R r n k) :
    Ends x count g R := by
  obtain ⟨r, count', h, hr, h'⟩ := hx
  exact ⟨r, count', h, hr, hq r count' h h'⟩

lemma ends_pure (hq : Q (.ok a) count g) : Ends (Pure.pure a) count g Q :=
  ⟨.ok a, count, g, ⟨rfl, rfl⟩, hq⟩

lemma ends_fail {e : Error} (hq : Q (.error e) count g) : Ends (Session.fail e) count g Q :=
  ⟨.error e, count, g, ⟨rfl, rfl⟩, hq⟩

lemma ends_countChange {Q : Except Error Nat → Nat → Graph → Prop}
    (hq : Q (.ok (count + 1)) (count + 1) g) : Ends countChange count g Q :=
  ⟨.ok (count + 1), count + 1, g, ⟨rfl, rfl⟩, hq⟩

lemma ends_count {Q : Except Error Nat → Nat → Graph → Prop} (hq : Q (.ok count) count g) :
    Ends Session.count count g Q := ⟨.ok count, count, g, ⟨rfl, rfl⟩, hq⟩

lemma ends_lift {x : Edit α} (hok : ∀ a h, Edit.Gives x g a h → Q (.ok a) count h)
    (herr : ∀ e h, Edit.Fails x g e → Q (.error e) count h) : Ends (Session.lift x) count g Q := by
  refine ⟨(x.run g).result, count, (x.run g).graph, gives_lift.2 ⟨rfl, rfl, rfl⟩, ?_⟩
  rcases hr : (x.run g).result with e | a
  · exact herr e _ hr
  · exact hok a _ ⟨hr, rfl⟩

lemma ends_liftM {x : Edit α} (hok : ∀ a h, Edit.Gives x g a h → Q (.ok a) count h)
    (herr : ∀ e h, Edit.Fails x g e → Q (.error e) count h) :
    Ends (liftM x : Session α) count g Q := ends_lift hok herr

lemma ends_bind {x : Session α} {f : α → Session β} (hx : Ends x count g fun r n k =>
      match r with
      | .ok a => Ends (f a) n k S
      | .error e => S (.error e) n k) : Ends (x >>= f) count g S := by
  obtain ⟨r, middle, k, hr, hq⟩ := hx
  unfold Ends
  rw [run_bind]
  cases r with
  | error e => exact ⟨.error e, middle, k, Edit.gives_bind.2 ⟨_, _, hr, rfl, rfl⟩, hq⟩
  | ok a =>
    obtain ⟨r, count', h, hrest, hs⟩ := hq
    exact ⟨r, count', h, Edit.gives_bind.2 ⟨_, _, hr, hrest⟩, hs⟩

lemma ends_within {context : String} {x : Session α} (hx : Ends x count g fun r n k =>
      match r with
      | .ok a => Q (.ok a) n k
      | .error e => Q (.error (e.within context)) n k) : Ends (x.within context) count g Q := by
  obtain ⟨r, count', h, hr, hq⟩ := hx
  refine ⟨r.mapError (·.within context), count', h, Edit.gives_bind.2 ⟨_, _, hr, rfl, rfl⟩, ?_⟩
  cases r with
  | error e => exact hq
  | ok a => exact hq

lemma ends_discard {Q : Except Error Unit → Nat → Graph → Prop} {x : Session α}
    (hx : Ends x count g fun r n k =>
      match r with
      | .ok _ => Q (.ok ()) n k
      | .error e => Q (.error e) n k) : Ends (discard x) count g Q := by
  show Ends ((fun _ => ()) <$> x) count g Q
  rw [map_eq_pure_bind]
  refine ends_bind (hx.mono fun r n k hq => ?_)
  cases r with
  | error e => exact hq
  | ok a => exact ends_pure hq

lemma ends_ite {c : Prop} [Decidable c] {x y : Session α} (hx : c → Ends x count g Q)
    (hy : ¬ c → Ends y count g Q) : Ends (if c then x else y) count g Q := by
  split
  · exact hx ‹_›
  · exact hy ‹_›

end Session

namespace Pipeline

variable (p : Pipeline)

lemma mem_enabled {t : Transformation} (ht : t ∈ p.enabled) : t ∈ p.transformations :=
  (List.mem_filter.1 ht).1

lemma mem_schedule {ts : List Transformation} (hs : p.schedule = .ok ts) {t : Transformation}
    (ht : t ∈ ts) : t ∈ p.transformations := by
  unfold schedule at hs
  rcases ho : Schedule.order (p.enabled.map (·.descriptor)) with e | order
  · rw [ho] at hs
    cases hs
  · rw [ho] at hs
    cases hs
    obtain ⟨i, -, hi⟩ := List.mem_filterMap.1 ht
    exact p.mem_enabled (List.mem_of_getElem? hi)

/-- What the parts of a pipeline have to keep for the pipeline to keep it. -/
structure Keeps (P : Graph → Prop) : Prop where
  cleanUp : Edit.Keeps P (Edit.cleanUp p.registry.isFixed)
  inferMarked : Edit.Keeps P p.registry.inferMarked
  enter : ∀ s, Edit.Keeps P (Edit.enter s)
  apply : ∀ t ∈ p.transformations, Edit.Keeps P t.apply

variable {p} (h : p.Keeps P)

include h

lemma keeps_normalize : Edit.Keeps P p.normalize := by
  have hinfer : Edit.Keeps P (discard p.registry.inferMarked) := Edit.keeps_discard h.inferMarked
  refine Edit.keeps_bind h.cleanUp fun report => ?_
  split
  · exact Edit.keeps_bind (keeps_note _ _) fun _ => hinfer
  · exact hinfer

omit h in
lemma keeps_noteChange (id : String) : Session.Keeps P (noteChange id) :=
  Session.keeps_bind Session.keeps_countChange fun _ => Session.keeps_liftM (keeps_note _ _)

omit h in
lemma applyOnce_eq (t : Transformation) : p.applyOnce t = (do
    let before ← (liftM current : Session Graph)
    let _ ← (liftM t.apply : Session Unit)
    let after ← (liftM current : Session Graph)
    (if after.revision ≠ before.revision then noteChange t.descriptor.id else pure () :
      Session Unit)
    (if t.descriptor.kind = .pattern then liftM p.normalize else pure () : Session Unit)
    pure (decide (after.revision ≠ before.revision))) := by
  refine bind_congr fun before => bind_congr fun _ => bind_congr fun after => ?_
  by_cases hc : after.revision ≠ before.revision <;>
    by_cases hk : t.descriptor.kind = .pattern <;> simp [hc, hk]

lemma keeps_applyOnce {t : Transformation} (ht : t ∈ p.transformations) :
    Session.Keeps P (p.applyOnce t) := by
  rw [applyOnce_eq]
  refine Session.keeps_bind (Session.keeps_liftM keeps_current) fun before => ?_
  refine Session.keeps_bind (Session.keeps_liftM (h.apply t ht)) fun _ => ?_
  refine Session.keeps_bind (Session.keeps_liftM keeps_current) fun after => ?_
  refine Session.keeps_bind ?_ fun _ => Session.keeps_bind ?_ fun _ => Session.keeps_pure _
  · exact Session.keeps_ite (keeps_noteChange _) (Session.keeps_pure _)
  · exact Session.keeps_ite (Session.keeps_liftM (keeps_normalize h)) (Session.keeps_pure _)

lemma keeps_applyRepeatedly {t : Transformation} (ht : t ∈ p.transformations) (n : Nat) :
    Session.Keeps P (p.applyRepeatedly t n) := by
  induction n with
  | zero => exact Session.keeps_fail _
  | succ n ih =>
    exact Session.keeps_bind (keeps_applyOnce h ht) fun _ =>
      Session.keeps_ite ih (Session.keeps_pure _)

lemma keeps_runOne {t : Transformation} (ht : t ∈ p.transformations) :
    Session.Keeps P (p.runOne t) := by
  unfold runOne
  split
  · exact Session.keeps_discard (keeps_applyOnce h ht)
  · exact keeps_applyRepeatedly h ht _

lemma keeps_runStage {ts : List Transformation} (hts : ∀ t ∈ ts, t ∈ p.transformations)
    (s : Stage) : Session.Keeps P (p.runStage ts s) := by
  unfold runStage
  refine Session.keeps_ite ?_ (Session.keeps_liftM (keeps_note _ _))
  refine Session.keeps_bind (Session.keeps_liftM (h.enter s)) fun _ => ?_
  refine Session.keeps_forM fun t ht => Session.keeps_within ?_
  exact keeps_runOne h (hts t ((List.mem_filter.1 ht).1))

omit h in
lemma ends_noteChange {id : String} {count : Nat} {g : Graph}
    {Q : Except Error Unit → Nat → Graph → Prop} (hq : Q (.ok ()) (count + 1) g) :
    Session.Ends (noteChange id) count g Q :=
  Session.ends_bind (Session.ends_countChange (Session.ends_liftM
    (fun _ _ hx => gives_note.1 hx ▸ hq) fun _ _ he => absurd he fails_note))

/-- What follows an application: a normalization, when the structure may have been changed. -/
def Followed (p : Pipeline) (t : Transformation) (m k : Graph) : Prop :=
  if t.descriptor.kind = .pattern then Gives p.normalize m () k else m = k

/-- What an application comes to. It is counted when it moves the revision. -/
inductive Applied (p : Pipeline) (t : Transformation) (g : Graph) (count : Nat) :
    Except Error Bool → Nat → Graph → Prop
  | failed {e : Error} {k : Graph} : Fails t.apply g e → Applied p t g count (.error e) count k
  | astray {e : Error} {m k : Graph} {n : Nat} : Gives t.apply g () m → Fails p.normalize m e →
      Applied p t g count (.error e) n k
  | done {m k : Graph} : Gives t.apply g () m → p.Followed t m k →
      Applied p t g count (.ok (decide (m.revision ≠ g.revision)))
        (if m.revision ≠ g.revision then count + 1 else count) k

omit h in
lemma ends_applyOnce (t : Transformation) (count : Nat) (g : Graph) :
    Session.Ends (p.applyOnce t) count g (p.Applied t g count) := by
  rw [applyOnce_eq]
  refine Session.ends_bind (Session.ends_liftM ?_ fun _ _ he => absurd he fails_current)
  intro _ _ hx
  obtain ⟨rfl, rfl⟩ := gives_current.1 hx
  refine Session.ends_bind (Session.ends_liftM (fun _ m happly => ?_) fun _ _ he => .failed he)
  refine Session.ends_bind (Session.ends_liftM ?_ fun _ _ he => absurd he fails_current)
  intro _ _ hx
  obtain ⟨rfl, rfl⟩ := gives_current.1 hx
  -- the rest is the same whether the change is counted or not
  have hrest : Session.Ends (do
      (if t.descriptor.kind = .pattern then liftM p.normalize else pure () : Session Unit)
      pure (decide (m.revision ≠ g.revision)))
      (if m.revision ≠ g.revision then count + 1 else count) m (p.Applied t g count) := by
    refine Session.ends_bind (Session.ends_ite (fun hk => ?_) fun hk => ?_)
    · refine Session.ends_liftM (fun _ k hnormal => Session.ends_pure (.done happly ?_))
        fun _ _ he => .astray happly he
      rw [Followed, if_pos hk]
      exact hnormal
    · refine Session.ends_pure (Session.ends_pure (.done happly ?_))
      rw [Followed, if_neg hk]
  refine Session.ends_bind (Session.ends_ite (fun hmoved => ?_) fun hmoved => ?_)
  · refine ends_noteChange ?_
    rw [if_pos hmoved] at hrest
    exact hrest
  · refine Session.ends_pure ?_
    rw [if_neg hmoved] at hrest
    exact hrest

omit h in
/-- An application that succeeds: the graph is changed, and normalized when the structure may have
been. It tells whether the revision moved before that. -/
lemma gives_applyOnce {t : Transformation} {g k : Graph} {b : Bool}
    (hx : Session.Gives (p.applyOnce t) g b k) : ∃ m, Gives t.apply g () m ∧
      b = decide (m.revision ≠ g.revision) ∧
      if t.descriptor.kind = .pattern then Gives p.normalize m () k else m = k := by
  obtain ⟨count, count', hx⟩ := hx
  cases (ends_applyOnce t count g).of_gives hx with
  | done happly hnext => exact ⟨_, happly, rfl, hnext⟩

omit h in
lemma gives_scheduleLogged {g k : Graph} {ts : List Transformation}
    (hs : Gives p.scheduleLogged g ts k) : p.schedule = .ok ts := by
  obtain ⟨_, _, -, hts⟩ := gives_bind.1 hs
  exact (Edit.gives_lift.1 hts).1

omit h in
lemma keeps_scheduleLogged : Edit.Keeps P p.scheduleLogged :=
  Edit.keeps_bind (Edit.keeps_forM fun _ _ => keeps_note _ _) fun _ => Edit.keeps_lift _

lemma keeps_optimizeIn : Session.Keeps P p.optimizeIn := by
  -- only a schedule that was found is run
  refine Session.keeps_bind_of (Session.keeps_lift keeps_scheduleLogged) ?_
  intro g count ts count' k hts
  have hsched : p.schedule = .ok ts := by
    obtain ⟨hr, -, -⟩ := Session.gives_lift.1 hts
    exact gives_scheduleLogged ⟨hr, rfl⟩
  refine Session.keeps_bind (Session.keeps_lift (keeps_within (keeps_normalize h))) fun _ => ?_
  refine Session.keeps_bind (Session.keeps_forM fun s _ => ?_) fun _ => ?_
  · exact keeps_runStage h (fun t ht => p.mem_schedule hsched ht) s
  · exact Session.keeps_bind Session.keeps_count fun _ => Session.keeps_liftM (keeps_note _ _)

lemma keeps_optimize : Edit.Keeps P p.optimize :=
  Edit.keeps_bind (keeps_optimizeIn h 0) fun _ => Edit.keeps_lift _

end Pipeline

end TensorGraph
