import TensorGraph.Graph.Reach
import TensorGraph.Proofs.Graphs

/-!
What a search through a graph finds.

`Graph.Reached` are the nodes on paths from given nodes, step by step. A search gives these and no
others (`mem_closure`).
-/

namespace TensorGraph.Graph

variable {g : Graph} {next : NodeId → List NodeId} {seen waiting starts : List NodeId} {id : NodeId}

/-- The nodes on paths that follow `next` from the given ones. -/
inductive Reached (g : Graph) (next : NodeId → List NodeId) (starts : List NodeId) : NodeId → Prop
  | start {i : NodeId} : i ∈ starts → (g.node? i).isSome → Reached g next starts i
  | step {i j : NodeId} : Reached g next starts i → j ∈ next i → (g.node? j).isSome →
      Reached g next starts j

/-- A search ends with what was seen and what was waiting, and with all that the nodes not seen
before lead to. -/
lemma closure_closed (g : Graph) (next : NodeId → List NodeId) (seen waiting : List NodeId) :
    seen ⊆ g.closure next seen waiting ∧
    (∀ i ∈ waiting, (g.node? i).isSome → i ∈ g.closure next seen waiting) ∧
    ∀ i ∈ g.closure next seen waiting, i ∈ seen ∨
      ∀ j ∈ next i, (g.node? j).isSome → j ∈ g.closure next seen waiting := by
  fun_induction closure g next seen waiting with
  | case1 seen => exact ⟨List.Subset.refl _, by simp, fun i hi => .inl hi⟩
  | case2 seen i waiting hi ih =>
    obtain ⟨hseen, hwaiting, hclosed⟩ := ih
    refine ⟨hseen, fun j hj hlive => ?_, hclosed⟩
    rcases List.mem_cons.1 hj with rfl | hj
    · exact hseen hi
    · exact hwaiting j hj hlive
  | case3 seen i waiting hi hlive ih =>
    obtain ⟨hseen, hwaiting, hclosed⟩ := ih
    obtain ⟨hmem, hseen⟩ := List.cons_subset.1 hseen
    refine ⟨hseen, fun j hj hj' => ?_, fun j hj => ?_⟩
    · rcases List.mem_cons.1 hj with rfl | hj
      · exact hmem
      · exact hwaiting j (List.mem_append_right _ hj) hj'
    · rcases hclosed j hj with hj | hj
      · rcases List.mem_cons.1 hj with rfl | hj
        · exact .inr fun k hk => hwaiting k (List.mem_append_left _ hk)
        · exact .inl hj
      · exact .inr hj
  | case4 seen i waiting hi hdead ih =>
    obtain ⟨hseen, hwaiting, hclosed⟩ := ih
    refine ⟨hseen, fun j hj hlive => ?_, hclosed⟩
    rcases List.mem_cons.1 hj with rfl | hj
    · exact absurd (mem_nodeIds.2 hlive) hdead
    · exact hwaiting j hj hlive

/-- What holds of what was seen and what was waiting, and passes on to what these lead to, holds of
all that a search finds. -/
lemma closure_sound {P : NodeId → Prop} (hnext : ∀ i, P i → ∀ j ∈ next i, (g.node? j).isSome → P j)
    (hseen : ∀ i ∈ seen, P i) (hwaiting : ∀ i ∈ waiting, (g.node? i).isSome → P i) :
    ∀ i ∈ g.closure next seen waiting, P i := by
  fun_induction closure g next seen waiting with
  | case1 seen => exact hseen
  | case2 seen i waiting hi ih =>
    exact ih hseen fun j hj => hwaiting j (List.mem_cons_of_mem i hj)
  | case3 seen i waiting hi hlive ih =>
    have hPi : P i := hwaiting i (List.mem_cons_self ..) (mem_nodeIds.1 hlive)
    refine ih (fun j hj => ?_) fun j hj => ?_
    · rcases List.mem_cons.1 hj with rfl | hj
      · exact hPi
      · exact hseen j hj
    · rcases List.mem_append.1 hj with hj | hj
      · exact hnext i hPi j hj
      · exact hwaiting j (List.mem_cons_of_mem i hj)
  | case4 seen i waiting hi hdead ih =>
    exact ih hseen fun j hj => hwaiting j (List.mem_cons_of_mem i hj)

/-- A search finds what is reached from where it starts. -/
theorem mem_closure : id ∈ g.closure next [] starts ↔ g.Reached next starts id := by
  obtain ⟨-, hstarts, hclosed⟩ := closure_closed g next [] starts
  constructor
  · exact closure_sound (fun i hi j hj hlive => .step hi hj hlive) (by simp)
      (fun i hi hlive => .start hi hlive) id
  · intro h
    induction h with
    | start hi hlive => exact hstarts _ hi hlive
    | step _ hj hlive ih => exact ((hclosed _ ih).resolve_left (by simp)) _ hj hlive

lemma mem_ancestors : id ∈ g.ancestors starts ↔ g.Reached g.sources starts id := mem_closure

end TensorGraph.Graph
