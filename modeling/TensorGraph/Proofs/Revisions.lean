import TensorGraph.Proofs.Structure

/-!
What the single changes keep, and what the revision of a graph tells.

The changes of a graph are made of a few single ones, and keep what these keep
(`Graph.Elementary.invariant`). A graph is only ever changed together with its revision, which moves
on by one, and stays in its stage. So what holds of a graph and of all graphs of a later revision is
invariant (`Graph.invariant_of_moves`), for every edit, where it ends and where it fails.
-/

namespace TensorGraph

open Edit

variable {α : Type} {P : Graph → Prop}

namespace Graph

/-- A graph of another revision is a later one, and one of the same revision the same. -/
def Tracked (g h : Graph) : Prop := g.revision < h.revision ∨ h = g

variable {g h : Graph}

lemma Tracked.eq (ht : g.Tracked h) (hr : h.revision = g.revision) : h = g :=
  ht.resolve_left (by omega)

lemma Tracked.le (ht : g.Tracked h) : g.revision ≤ h.revision := by
  rcases ht with hlt | rfl
  · exact Nat.le_of_lt hlt
  · exact Nat.le_refl _

lemma Tracked.eq_of_le (ht : g.Tracked h) (hle : h.revision ≤ g.revision) : h = g :=
  ht.eq (Nat.le_antisymm hle ht.le)

/-- Every single change of the tables keeps the property. A node is taken out alone, once there are
no edges at it. -/
structure Elementary (P : Graph → Prop) : Prop where
  touch : ∀ {g}, P g → P { g with revision := g.revision + 1 }
  pushNode : ∀ {g n} (hfree : g.contains n.name = false), P g →
    P { g.pushNode n hfree with revision := g.revision + 1 }
  modifyOp : ∀ {g} id f, P g → P { g.modifyOp id f with revision := g.revision + 1 }
  modifyFact : ∀ {g} id f, P g → P { g.modifyFact id f with revision := g.revision + 1 }
  pushLink : ∀ {g l} hsrc hdst, P g →
    P { g.pushLink l hsrc hdst with revision := g.revision + 1 }
  eraseEdge : ∀ {g} i, P g → P { g.eraseEdge i with revision := g.revision + 1 }
  setOutPort : ∀ {g} i port, P g → P { g.setOutPort i port with revision := g.revision + 1 }
  eraseNode : ∀ {g id}, (∀ e ∈ g.edges, e.src ≠ id ∧ e.dst ≠ id) → P g →
    P { g.eraseNode id with revision := g.revision + 1 }

/-- What every single change keeps, the changes that are made of them keep. -/
lemma Elementary.invariant {P : Graph → Prop} (hP : Elementary P) : Invariant P := by
  have hchange {f : Graph → Graph} (hf : ∀ {g}, P g → P { f g with revision := g.revision + 1 }) :
      Keeps P (change f) := fun _ => hf
  have hremove (i : EdgeId) : Keeps P (Edit.removeEdge i) :=
    keeps_bind (keeps_query _) fun _ => keeps_bind (hchange (hP.eraseEdge i)) fun _ => keeps_pure _
  constructor
  case addNode =>
    refine fun name c => (atomic_addNode name c).keeps fun g id h hg hx => ?_
    obtain ⟨hfree, -, rfl⟩ := gives_addNode.1 hx
    exact hP.pushNode hfree hg
  case touch => exact fun _ => keeps_bind (hchange hP.touch) fun _ => keeps_query _
  case modifyOp =>
    exact fun id f => keeps_bind (hchange (hP.modifyOp id f)) fun _ =>
      keeps_bind (keeps_query _) fun _ => keeps_pure _
  case modifyFact =>
    exact fun id f => keeps_bind (hchange (hP.modifyFact id f)) fun _ =>
      keeps_bind (keeps_query _) fun _ => keeps_pure _
  case addEdge =>
    refine fun src dst out inp => (atomic_addEdge src dst out inp).keeps fun g i h hg hx => ?_
    obtain ⟨-, -, hsrc, hdst, rfl⟩ := gives_addEdge.1 hx
    exact hP.pushLink hsrc hdst hg
  case removeEdge => exact hremove
  case removeNode =>
    exact keeps_removeNode_of hremove fun hg hfree => hP.eraseNode hfree hg
  case compactOutputs =>
    exact fun _ => keeps_bind (keeps_query _) fun _ =>
      keeps_bind (keeps_forM fun e _ => keeps_bind (keeps_query _) fun _ =>
        hchange (hP.setOutPort e.id _)) fun _ => keeps_pure _

/-- What survives every move of the revision within a stage survives every change. -/
theorem invariant_of_moves
    (hP : ∀ {g h : Graph}, P g → h.stage = g.stage → g.revision < h.revision → P h) :
    Invariant P := by
  have hmove {g h : Graph} (hg : P g) (hs : h.stage = g.stage) :
      P { h with revision := g.revision + 1 } := hP hg hs (Nat.lt_succ_self _)
  refine Elementary.invariant ?_
  constructor
  case touch => exact fun hg => hmove hg rfl
  case pushNode => exact fun _ hg => hmove hg rfl
  case modifyOp => exact fun _ _ hg => hmove hg rfl
  case modifyFact => exact fun _ _ hg => hmove hg rfl
  case pushLink => exact fun _ _ hg => hmove hg rfl
  case eraseEdge => exact fun _ hg => hmove hg rfl
  case setOutPort => exact fun _ _ hg => hmove hg rfl
  case eraseNode => exact fun _ hg => hmove hg rfl

/-- The revision never goes back. -/
lemma invariant_revision (n : Nat) : Invariant fun k => n ≤ k.revision :=
  invariant_of_moves fun hg _ hlt => Nat.le_of_lt (Nat.lt_of_le_of_lt hg hlt)

lemma invariant_tracked (g : Graph) : Invariant g.Tracked :=
  invariant_of_moves fun hg _ hlt => .inl (Nat.lt_of_le_of_lt hg.le hlt)

/-- No change takes a graph to another stage. -/
lemma invariant_stage (s : Stage) : Invariant fun k => k.stage = s :=
  invariant_of_moves fun hg hs _ => hs.trans hg

end Graph

/-- An edit made of the changes of a graph is seen by the revision. -/
lemma Edit.Orderly.tracked {x : Edit α} (hx : Structural x) (g : Graph) :
    g.Tracked (x.run g).graph := hx.keeps (Graph.invariant_tracked g).shaped g (.inr rfl)

lemma Edit.Gives.tracked {x : Edit α} {g h : Graph} {a : α} (hx : Gives x g a h)
    (hst : Structural x) : g.Tracked h := hx.2 ▸ hst.tracked g

namespace Edit

variable {β : Type} {g h : Graph} {b : β}

lemma revision_lt_of_change {f : Graph → Graph} {x : Unit → Edit β} (hst : Structural (x ()))
    (hx : Gives (change f >>= x) g b h) : g.revision < h.revision := by
  obtain ⟨_, _, hchange, hrest⟩ := gives_bind.1 hx
  obtain rfl := gives_change.1 hchange
  exact Nat.lt_of_lt_of_le (Nat.lt_succ_self _) (hrest.tracked hst).le

lemma revision_lt_of_modifyOp {id : NodeId} {f : Operation → Operation}
    (hx : Gives (modifyOp id f) g () h) : g.revision < h.revision :=
  revision_lt_of_change (orderly_bind (orderly_query fun g => g.plain_operation id) fun _ =>
    orderly_pure _) hx

lemma revision_lt_of_modifyFact {id : NodeId} {f : Fact → Fact}
    (hx : Gives (modifyFact id f) g () h) : g.revision < h.revision :=
  revision_lt_of_change (orderly_bind (orderly_query fun g => g.plain_fact id) fun _ =>
    orderly_pure _) hx

/-- No step of a loop that comes back to the graph it started from has changed it. -/
lemma gives_of_forM_self {l : List α} {f : α → Edit Unit} (hst : ∀ a, Structural (f a))
    (hx : Gives (l.forM f) g () g) : ∀ a ∈ l, Gives (f a) g () g := by
  induction l with
  | nil => exact fun a ha => absurd ha List.not_mem_nil
  | cons a l ih =>
    obtain ⟨_, k, hfirst, hrest⟩ := gives_bind.1 hx
    obtain rfl := (hfirst.tracked (hst a)).eq_of_le (hrest.tracked (orderly_forM hst)).le
    intro b hb
    rcases List.mem_cons.1 hb with rfl | hb
    · exact hfirst
    · exact ih hrest b hb

end Edit

end TensorGraph
