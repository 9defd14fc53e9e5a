import TraderBot.DecisionGraph.Dependencies
import TraderBot.Lib.Returns

/-! # What the traversal depends on

A traversal looks up only the references it visits, so it runs the same over any two
graphs that agree on those; and a closure with a known time has a clock, no later
than that time, for each of its references. -/
namespace TraderBot.DecisionGraph
open TraderBot.Lib

section
variable {nodes : Nodes}

variable {depth : Nat} {child : Option String} {walk out : Walk}

/-- What entering a node, leaving it and rejecting keep, a visit keeps. -/
theorem visit_invariant {I : Walk → Prop} (hreject : ∀ walk, I walk → I walk.reject)
    (hleave : ∀ walk ref, I walk → I (walk.leave ref))
    (hmissing : ∀ walk ref, nodes.get? ref = none → I walk → I (walk.enter ref).reject)
    (henter : ∀ walk ref node, nodes.get? ref = some node → I walk →
      I ((walk.enter ref).clock node.availableAt)) (h : visit nodes depth child walk = .ok out)
    (hi : I walk) : I out := by
  induction depth generalizing child walk out with
  | zero => cases h
  | succ depth ih =>
    cases child with
    | none => cases h
    | some ref =>
      rw [visit] at h
      split at h
      · cases h
        exact hreject _ hi
      · cases h
        exact hi
      · split at h
        · rename_i hnode
          cases h
          exact hleave _ _ (hmissing _ _ hnode hi)
        · rename_i node hnode
          split at h
          · rename_i inner hloop
            cases h
            exact hleave _ _ (foldlM_invariant (fun walk child out hw hstep => ih hstep hw) hloop
              (henter _ _ _ hnode hi))
          · cases h

/-- A visit only adds to what was visited. -/
theorem visit_visited (h : visit nodes depth child walk = .ok out) :
    walk.visited ⊆ out.visited := by
  refine visit_invariant (I := fun w => walk.visited ⊆ w.visited) (fun _ => id) (fun _ _ => id)
    (fun _ _ _ hw => List.subset_append_of_subset_left _ hw) ?_ h (List.Subset.refl _)
  intro w ref node _ hw
  cases hclock : node.availableAt <;> exact List.subset_append_of_subset_left _ hw

theorem visits_visited {children : List (Option String)}
    (h : children.foldlM (fun walk child => visit nodes depth child walk) walk = .ok out) :
    walk.visited ⊆ out.visited :=
  foldlM_invariant (I := fun w => walk.visited ⊆ w.visited)
    (fun _ _ _ hw hstep => List.Subset.trans hw (visit_visited hstep)) h (List.Subset.refl _)

/-- While nothing was rejected, every reference that was visited has a clock among the times. -/
def Clocked (nodes : Nodes) (walk : Walk) : Prop :=
  walk.valid = true → ∀ ref ∈ walk.visited, ∃ node t, nodes.get? ref = some node ∧
    node.availableAt = some t ∧ t ∈ walk.times

theorem visit_clocked (h : visit nodes depth child walk = .ok out) (hi : Clocked nodes walk) :
    Clocked nodes out := by
  refine visit_invariant (fun _ _ => nofun) (fun _ _ => id) (fun _ _ _ _ => nofun) ?_ h hi
  intro w ref node hnode hw
  cases hclock : node.availableAt with
  | none => exact nofun
  | some t =>
    intro hvalid r hr
    rcases List.mem_append.mp hr with hr | hr
    · obtain ⟨n, s, hn, hs, hmem⟩ := hw hvalid r hr
      exact ⟨n, s, hn, hs, List.mem_append_left _ hmem⟩
    · rw [List.mem_singleton.mp hr]
      exact ⟨node, t, hnode, hclock, List.mem_append_right _ (List.mem_singleton_self t)⟩

variable {nodes' : Nodes}

/-- A visit runs the same over a graph with the same nodes at what it visits. -/
theorem visit_agree (h : visit nodes depth child walk = .ok out)
    (hagree : ∀ ref ∈ out.visited, nodes'.get? ref = nodes.get? ref) :
    visit nodes' depth child walk = .ok out := by
  induction depth generalizing child walk out with
  | zero => cases h
  | succ depth ih =>
    -- the loop over the children, each of which visits less than the loop did
    have loop : ∀ (children : List (Option String)) (w : Walk) (last : Walk),
        children.foldlM (fun walk child => visit nodes depth child walk) w = .ok last →
        (∀ ref ∈ last.visited, nodes'.get? ref = nodes.get? ref) →
        children.foldlM (fun walk child => visit nodes' depth child walk) w = .ok last := by
      intro children
      induction children with
      | nil => exact fun _ _ hloop _ => hloop
      | cons c children ihc =>
        intro w last hloop hlast
        rw [List.foldlM_cons] at hloop ⊢
        obtain ⟨next, hfirst, hrest⟩ := bind_ok hloop
        rw [ih hfirst fun ref href => hlast ref (visits_visited hrest href)]
        exact ihc next last hrest hlast
    cases child with
    | none => cases h
    | some ref =>
      rw [visit] at h ⊢
      cases hcolour : walk.colour.get? ref with
      | some colour =>
        rw [hcolour] at h
        cases colour <;> exact h
      | none =>
        rw [hcolour] at h
        -- the reference itself is among what was visited
        have hself : ref ∈ out.visited := by
          have hentered : ref ∈ (walk.enter ref).visited := List.mem_append_right _ (List.mem_singleton_self ref)
          dsimp only at h
          split at h
          · cases h
            exact hentered
          · rename_i node _
            split at h
            · rename_i inner hloop
              cases h
              refine visits_visited hloop ?_
              cases hclock : node.availableAt <;> exact hentered
            · cases h
        dsimp only at h ⊢
        rw [hagree ref hself]
        split at h
        · exact h
        · split at h
          · rename_i inner hloop
            cases h
            rw [loop _ _ _ hloop hagree]
          · cases h

end

theorem Stamp.latest_le {first a : Stamp} {rest : List Stamp} (h : Stamp.latest first rest = .ok a) :
    ∀ t ∈ first :: rest, t.instant ≤ a.instant := by
  induction rest generalizing first with
  | nil =>
    intro t ht
    rw [List.mem_singleton.mp ht, pure_ok h]
  | cons s rest ih =>
    rw [Stamp.latest, List.foldlM_cons] at h
    obtain ⟨best, hbest, hrest⟩ := bind_ok h
    obtain ⟨earlier, hbefore, hpick⟩ := bind_ok hbest
    have hle : first.instant ≤ best.instant ∧ s.instant ≤ best.instant := by
      unfold Stamp.before at hbefore
      split_ifs at hbefore
      cases hbefore
      rw [← pure_ok hpick]
      simp only [decide_eq_true_eq]
      split_ifs with hlt
      · exact ⟨le_of_lt hlt, le_refl _⟩
      · exact ⟨le_refl _, not_lt.mp hlt⟩
    have hlast := ih hrest
    intro t ht
    rcases List.mem_cons.mp ht with rfl | ht
    · exact hle.1.trans (hlast best List.mem_cons_self)
    · rcases List.mem_cons.mp ht with rfl | ht
      · exact hle.2.trans (hlast best List.mem_cons_self)
      · exact hlast t (List.mem_cons_of_mem _ ht)

theorem mem_sortedSet {ref : String} {refs : List String} : ref ∈ sortedSet refs ↔ ref ∈ refs := by
  rw [sortedSet, List.mem_insertionSort, List.mem_dedup]

section
variable {depth : Nat} {root : String} {nodes nodes' : Nodes} {a : Stamp} {refs : List String}

/-- A closure with a known time is that of a traversal that rejected nothing. -/
theorem dependencyClosure_known (h : dependencyClosure depth root nodes = .ok (some a, refs)) :
    ∃ walk first rest, visit nodes depth (some root) .start = .ok walk ∧ walk.valid = true ∧
      walk.times = first :: rest ∧ Stamp.latest first rest = .ok a ∧ refs = sortedSet walk.visited := by
  unfold dependencyClosure at h
  split at h
  · cases h
  · rename_i walk hvisit
    split at h
    · rename_i first rest hvalid htimes
      obtain ⟨b, hb, hout⟩ := map_ok h
      cases hout
      exact ⟨walk, first, rest, hvisit, hvalid, htimes, hb, rfl⟩
    · cases h

/-- Every reference of a closure with a known time has a clock no later than it. -/
theorem dependencyClosure_clock (h : dependencyClosure depth root nodes = .ok (some a, refs)) :
    ∀ ref ∈ refs, ∃ node t, nodes.get? ref = some node ∧ node.availableAt = some t ∧
      t.instant ≤ a.instant := by
  obtain ⟨walk, first, rest, hvisit, hvalid, htimes, hlatest, rfl⟩ := dependencyClosure_known h
  intro ref href
  obtain ⟨node, t, hnode, hclock, ht⟩ := visit_clocked hvisit (fun _ => nofun) hvalid ref (mem_sortedSet.mp href)
  exact ⟨node, t, hnode, hclock, Stamp.latest_le hlatest t (htimes ▸ ht)⟩

/-- A closure with a known time is the same over a graph with the same nodes at its references. -/
theorem dependencyClosure_agree (h : dependencyClosure depth root nodes = .ok (some a, refs))
    (hagree : ∀ ref ∈ refs, nodes'.get? ref = nodes.get? ref) :
    dependencyClosure depth root nodes' = .ok (some a, refs) := by
  obtain ⟨walk, first, rest, hvisit, hvalid, htimes, hlatest, rfl⟩ := dependencyClosure_known h
  have hsame := visit_agree hvisit fun ref href => hagree ref (mem_sortedSet.mpr href)
  rw [dependencyClosure, hsame]
  dsimp only
  rw [hvalid, htimes]
  dsimp only
  rw [hlatest]
  rfl

end

end TraderBot.DecisionGraph
