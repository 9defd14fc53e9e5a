import TraderBot.DecisionGraph.Traversal

/-! # What the closure is

The traversal visits exactly what can be reached from the root. Grey nodes are those it is below, so a grey child
closes a cycle; a node turns black after its children did, so as long as nothing was rejected no black node is on a
cycle. The latest clock is found where the clocks can be compared at all. -/
namespace TraderBot.DecisionGraph
open TraderBot.Lib

/-! ## The graph -/

section
variable (nodes : Nodes) (root : String)

/-- One reference is a dependency of another one. -/
def Depends (a b : String) : Prop := ∃ node, nodes.get? a = some node ∧ some b ∈ node.dependencies

def Reachable (ref : String) : Prop := Relation.ReflTransGen (Depends nodes) root ref

/-- A node that is there and has a clock. -/
def HasClock (ref : String) : Prop := ∃ node t, nodes.get? ref = some node ∧ node.availableAt = some t

/-- Every reference that can be reached is a node with a clock, and none is on a cycle. -/
structure Complete : Prop where
  clocks : ∀ ref, Reachable nodes root ref → HasClock nodes ref
  acyclic : ∀ ref, Reachable nodes root ref → ¬ Relation.TransGen (Depends nodes) ref ref

/-- The clocks that can be reached all have an offset, or none has. -/
def Comparable : Prop := ∃ aware, ∀ ref node t, Reachable nodes root ref → nodes.get? ref = some node →
  node.availableAt = some t → t.offset.isSome = aware

/-- The dependencies are references. -/
def References : Prop := ∀ ref node, nodes.get? ref = some node → none ∉ node.dependencies

/-- The closure lists what can be reached, with the latest clock iff it is complete. -/
def ExactClosure (depth : Nat) : Prop :=
  ∃ time refs, dependencyClosure depth root nodes = .ok (time, refs) ∧
    refs.Nodup ∧ refs.Pairwise (· ≤ ·) ∧ (∀ ref, ref ∈ refs ↔ Reachable nodes root ref) ∧
    (time.isSome ↔ Complete nodes root) ∧
    ∀ latest, time = some latest →
      (∃ ref node, Reachable nodes root ref ∧ nodes.get? ref = some node ∧ node.availableAt = some latest) ∧
      ∀ ref node t, Reachable nodes root ref → nodes.get? ref = some node → node.availableAt = some t →
        t.instant ≤ latest.instant

end

/-! ## What a visit changes of the colours -/

section
variable {nodes : Nodes} {root : String} {w w' out : Walk} {ref : String}

/-- Colours stay, and what was white is white or black. -/
structure Grows (w out : Walk) : Prop where
  kept : ∀ r k, w.colour.get? r = some k → out.colour.get? r = some k
  fresh : ∀ r, w.colour.get? r = none → out.colour.get? r = none ∨ out.colour.get? r = some .black

theorem Grows.refl (w : Walk) : Grows w w := ⟨fun _ _ h => h, fun _ h => .inl h⟩

theorem Grows.trans (h : Grows w w') (h' : Grows w' out) : Grows w out where
  kept r k hk := h'.kept r k (h.kept r k hk)
  fresh r hr := by
    rcases h.fresh r hr with hnone | hblack
    · exact h'.fresh r hnone
    · exact .inr (h'.kept r _ hblack)

/-- What is grey after a visit was so before. -/
theorem Grows.grey (h : Grows w out) {r : String} (hr : out.colour.get? r = some .grey) :
    w.colour.get? r = some .grey := by
  cases hw : w.colour.get? r with
  | none =>
    rcases h.fresh r hw with hnone | hblack
    · rw [hnone] at hr
      cases hr
    · rw [hblack] at hr
      cases hr
  | some k =>
    rw [h.kept r k hw] at hr
    exact hr

theorem colour_clock (w : Walk) (t : Option Stamp) : (w.clock t).colour = w.colour := by
  cases t <;> rfl

/-- A node is entered, what is below it is visited, and it is left black. -/
theorem Grows.node (hwhite : w.colour.get? ref = none) {t : Option Stamp} (h : Grows ((w.enter ref).clock t) out) :
    Grows w (out.leave ref) where
  kept r k hk := by
    have hne : r ≠ ref := by
      rintro rfl
      rw [hwhite] at hk
      cases hk
    show (out.colour.set ref .black).get? r = some k
    rw [OrderedDict.get?_set_ne hne]
    refine h.kept r k ?_
    rw [colour_clock]
    exact (OrderedDict.get?_set_ne hne).trans hk
  fresh r hr := by
    show (out.colour.set ref .black).get? r = none ∨ (out.colour.set ref .black).get? r = some .black
    by_cases hne : r = ref
    · subst hne
      exact .inr OrderedDict.get?_set_self
    · rw [OrderedDict.get?_set_ne hne]
      refine h.fresh r ?_
      rw [colour_clock]
      exact (OrderedDict.get?_set_ne hne).trans hr

theorem visit_grows {depth : Nat} {child : Option String} (h : visit nodes depth child w = .ok out) : Grows w out := by
  induction depth generalizing child w out with
  | zero => cases h
  | succ depth ih =>
    cases child with
    | none => cases h
    | some ref =>
      rw [visit] at h
      split at h
      · cases h
        exact ⟨fun _ _ hr => hr, fun _ hr => .inl hr⟩
      · cases h
        exact .refl w
      · rename_i hwhite
        split at h
        · cases h
          exact .node (t := none) hwhite (.refl _)
        · split at h
          · rename_i node _ inner hloop
            cases h
            exact .node hwhite (foldlM_invariant (fun _ _ _ hw hstep => hw.trans (ih hstep)) hloop (.refl _))
          · cases h

/-! ## Enough depth -/

/-- The nodes that have no colour yet. -/
def whites (nodes : Nodes) (w : Walk) : Nat := (nodes.keys.filter fun k => (w.colour.get? k).isNone).length

theorem Grows.whites_le (h : Grows w out) : whites nodes out ≤ whites nodes w := by
  refine List.Sublist.length_le (List.monotone_filter_right _ fun k hk => ?_)
  rw [Option.isNone_iff_eq_none] at hk ⊢
  cases hw : w.colour.get? k with
  | none => rfl
  | some c =>
    rw [h.kept k c hw] at hk
    cases hk

variable {node : Node} {depth : Nat}

theorem whites_enter {t : Option Stamp} (hnode : nodes.get? ref = some node)
    (hwhite : w.colour.get? ref = none) :
    whites nodes ((w.enter ref).clock t) < whites nodes w := by
  have hsub : (nodes.keys.filter fun k => (((w.enter ref).clock t).colour.get? k).isNone) =
      (nodes.keys.filter fun k => (w.colour.get? k).isNone).filter fun k => k ≠ ref := by
    rw [List.filter_filter]
    refine List.filter_congr fun k _ => ?_
    rw [colour_clock]
    show ((w.colour.set ref .grey).get? k).isNone = _
    by_cases hk : k = ref
    · subst hk
      rw [OrderedDict.get?_set_self]
      simp
    · rw [OrderedDict.get?_set_ne hk]
      simp [hk]
  have hmem : ref ∈ nodes.keys.filter fun k => (w.colour.get? k).isNone := by
    refine List.mem_filter.mpr ⟨OrderedDict.mem_keys.mpr (by rw [hnode]; rfl), ?_⟩
    rw [hwhite]
    rfl
  unfold whites
  rw [hsub]
  exact List.length_filter_lt_length_iff_exists.mpr ⟨ref, hmem, by simp⟩

/-- A visit comes back where the depth is more than the nodes that are left. -/
theorem visit_total (hrefs : References nodes) (hdepth : whites nodes w < depth) :
    ∃ out, visit nodes depth (some ref) w = .ok out := by
  induction depth generalizing ref w with
  | zero => exact absurd hdepth (Nat.not_lt_zero _)
  | succ depth ih =>
    rw [visit]
    split
    · exact ⟨_, rfl⟩
    · exact ⟨_, rfl⟩
    · rename_i hwhite
      split
      · exact ⟨_, rfl⟩
      · rename_i node hnode
        have hfewer : whites nodes ((w.enter ref).clock node.availableAt) < whites nodes w := whites_enter hnode hwhite
        have hloop : ∀ (children : List (Option String)) (v : Walk), none ∉ children →
            whites nodes v < depth → ∃ last, children.foldlM (fun walk child => visit nodes depth child walk) v = .ok last := by
          intro children
          induction children with
          | nil => exact fun v _ _ => ⟨v, rfl⟩
          | cons child children ihc =>
            intro v hnone hv
            rw [List.mem_cons, not_or] at hnone
            obtain ⟨c, rfl⟩ := Option.ne_none_iff_exists'.mp (Ne.symm hnone.1)
            obtain ⟨next, hnext⟩ := @ih v c hv
            obtain ⟨last, hlast⟩ := ihc next hnone.2 (lt_of_le_of_lt (visit_grows hnext).whites_le hv)
            exact ⟨last, by rw [List.foldlM_cons, hnext, ok_bind, hlast]⟩
        obtain ⟨last, hlast⟩ := hloop node.dependencies ((w.enter ref).clock node.availableAt) (hrefs ref node hnode)
          (lt_of_lt_of_le hfewer (Nat.lt_succ_iff.mp hdepth))
        rw [hlast]
        exact ⟨_, rfl⟩

/-! ## The invariant -/

/-- What holds of a traversal from the root between two visits. -/
structure Explored (nodes : Nodes) (root : String) (w : Walk) : Prop where
  visited : ∀ r, r ∈ w.visited ↔ w.colour.get? r ≠ none
  reachable : ∀ r ∈ w.visited, Reachable nodes root r
  /-- What is below a black node was visited. -/
  closed : ∀ r, w.colour.get? r = some .black → ∀ c, Depends nodes r c → w.colour.get? c ≠ none
  times : ∀ t ∈ w.times, ∃ r ∈ w.visited, ∃ node, nodes.get? r = some node ∧ node.availableAt = some t
  rejected : w.valid = false → ¬ Complete nodes root
  black : w.valid = true → ∀ r, w.colour.get? r = some .black → ∀ c, Depends nodes r c → w.colour.get? c = some .black
  acyclic : w.valid = true → ∀ r, w.colour.get? r = some .black → ¬ Relation.TransGen (Depends nodes) r r

theorem explored_start : Explored nodes root .start where
  visited r := iff_of_false (by simp [Walk.start]) (by simp [Walk.start])
  reachable r hr := by cases hr
  closed r hr := by cases hr
  times t ht := by cases ht
  rejected h := by cases h
  black _ r hr := by cases hr
  acyclic _ r hr := by cases hr

theorem Explored.reject (h : Explored nodes root w) (hdefect : ¬ Complete nodes root) : Explored nodes root w.reject :=
  { h with
    rejected := fun _ => hdefect
    black := fun hvalid => by cases hvalid
    acyclic := fun hvalid => by cases hvalid }

/-- A white reference that can be reached turns grey. -/
theorem Explored.enter (h : Explored nodes root w) (hwhite : w.colour.get? ref = none)
    (href : Reachable nodes root ref) : Explored nodes root (w.enter ref) := by
  have hcolour : ∀ r, (w.enter ref).colour.get? r = if r = ref then some .grey else w.colour.get? r := fun r =>
    OrderedDict.get?_set
  have hblack : ∀ r, (w.enter ref).colour.get? r = some .black → w.colour.get? r = some .black := by
    intro r hr
    rw [hcolour] at hr
    split_ifs at hr
    · cases hr
    · exact hr
  have hkept : ∀ r k, w.colour.get? r = some k → (w.enter ref).colour.get? r = some k := by
    intro r k hr
    rw [hcolour, if_neg, hr]
    rintro rfl
    rw [hwhite] at hr
    cases hr
  refine ⟨fun r => ?_, fun r hr => ?_, fun r hr c hc => ?_, fun t ht => ?_, h.rejected, fun hvalid r hr c hc => ?_,
    fun hvalid r hr => h.acyclic hvalid r (hblack r hr)⟩
  · show r ∈ w.visited ++ [ref] ↔ _
    rw [List.mem_append, List.mem_singleton, h.visited, hcolour]
    by_cases hr : r = ref
    · simp [hr]
    · simp [hr]
  · rcases List.mem_append.mp hr with hr | hr
    · exact h.reachable r hr
    · exact List.mem_singleton.mp hr ▸ href
  · obtain ⟨k, hk⟩ := Option.ne_none_iff_exists'.mp (h.closed r (hblack r hr) c hc)
    rw [hkept c k hk]
    exact Option.some_ne_none k
  · obtain ⟨r, hr, hclock⟩ := h.times t ht
    exact ⟨r, List.mem_append_left _ hr, hclock⟩
  · exact hkept c _ (h.black hvalid r (hblack r hr) c hc)

/-- The clock of a node that was visited is kept, or its lack. -/
theorem Explored.clock (h : Explored nodes root w) (hmem : ref ∈ w.visited)
    (hnode : nodes.get? ref = some node) : Explored nodes root (w.clock node.availableAt) := by
  cases hclock : node.availableAt with
  | none =>
    refine h.reject fun hcomplete => ?_
    obtain ⟨node', t, hnode', ht⟩ := hcomplete.clocks ref (h.reachable ref hmem)
    rw [hnode] at hnode'
    cases hnode'
    rw [hclock] at ht
    cases ht
  | some t =>
    refine { h with times := fun s hs => ?_ }
    rcases List.mem_append.mp hs with hs | hs
    · exact h.times s hs
    · rw [List.mem_singleton.mp hs]
      exact ⟨ref, hmem, node, hnode, hclock⟩

/-- A grey node turns black once what is below it was visited. -/
theorem Explored.leave (h : Explored nodes root w) (hgrey : w.colour.get? ref = some .grey)
    (hcolour : ∀ c, Depends nodes ref c → w.colour.get? c ≠ none)
    (hblack : w.valid = true → ∀ c, Depends nodes ref c → w.colour.get? c = some .black) :
    Explored nodes root (w.leave ref) := by
  have hget : ∀ r, (w.leave ref).colour.get? r = if r = ref then some .black else w.colour.get? r := fun r =>
    OrderedDict.get?_set
  have hkept : ∀ c, w.colour.get? c ≠ none → (w.leave ref).colour.get? c ≠ none := by
    intro c hc
    rw [hget]
    split_ifs
    · exact Option.some_ne_none _
    · exact hc
  have hstays : ∀ c, w.colour.get? c = some .black → (w.leave ref).colour.get? c = some .black := by
    intro c hc
    rw [hget]
    split_ifs
    · rfl
    · exact hc
  -- what is reached from below stays among the nodes that were black before
  have hbelow : w.valid = true → ∀ a b, Relation.ReflTransGen (Depends nodes) a b → w.colour.get? a = some .black →
      w.colour.get? b = some .black := by
    intro hvalid a b hab ha
    induction hab with
    | refl => exact ha
    | tail _ hbc ih => exact h.black hvalid _ ih _ hbc
  refine ⟨fun r => ?_, h.reachable, fun r hr c hc => ?_, h.times, h.rejected, fun hvalid r hr c hc => ?_,
    fun hvalid r hr hcycle => ?_⟩
  · refine (h.visited r).trans ?_
    rw [hget]
    by_cases hr : r = ref
    · simp [hr, hgrey]
    · simp [hr]
  · rw [hget] at hr
    split_ifs at hr with hself
    · exact hkept c (hcolour c (hself ▸ hc))
    · exact hkept c (h.closed r hr c hc)
  · rw [hget] at hr
    split_ifs at hr with hself
    · exact hstays c (hblack hvalid c (hself ▸ hc))
    · exact hstays c (h.black hvalid r hr c hc)
  · rw [hget] at hr
    split_ifs at hr with hself
    · subst hself
      obtain ⟨c, hc, hback⟩ := Relation.TransGen.head'_iff.mp hcycle
      have hagain := hbelow hvalid c r hback (hblack hvalid c hc)
      rw [hgrey] at hagain
      cases hagain
    · exact h.acyclic hvalid r hr hcycle

/-- A visit only rejects. -/
theorem visit_valid {child : Option String} (h : visit nodes depth child w = .ok out)
    (hvalid : out.valid = true) : w.valid = true := by
  refine visit_invariant (I := fun v => v.valid = true → w.valid = true) (fun _ _ hv => by cases hv) (fun _ _ hv => hv)
    (fun _ _ _ _ hv => by cases hv) (fun v r node _ hv hclock => ?_) h (fun hv => hv) hvalid
  cases ht : node.availableAt with
  | none =>
    rw [ht] at hclock
    cases hclock
  | some t =>
    rw [ht] at hclock
    exact hv hclock

/-- **A visit explores what is below a reference.** Every grey node is above it. -/
theorem visit_explored (h : visit nodes depth (some ref) w = .ok out) (hw : Explored nodes root w)
    (habove : ∀ g, w.colour.get? g = some .grey → Relation.TransGen (Depends nodes) g ref)
    (href : Reachable nodes root ref) :
    Explored nodes root out ∧ out.colour.get? ref ≠ none ∧ (out.valid = true → out.colour.get? ref = some .black) := by
  induction depth generalizing ref w out with
  | zero => cases h
  | succ depth ih =>
    rw [visit] at h
    split at h
    · rename_i hgrey
      cases h
      refine ⟨hw.reject fun hcomplete => hcomplete.acyclic ref href (habove ref hgrey), ?_, fun hvalid => by cases hvalid⟩
      rw [show w.reject.colour = w.colour from rfl, hgrey]
      exact Option.some_ne_none _
    · rename_i hblack
      cases h
      exact ⟨hw, by rw [hblack]; exact Option.some_ne_none _, fun _ => hblack⟩
    · rename_i hwhite
      have hentered := hw.enter hwhite href
      have hself : (w.enter ref).colour.get? ref = some .grey := OrderedDict.get?_set_self
      split at h
      · rename_i hmissing
        cases h
        have hnothing : ∀ c, ¬ Depends nodes ref c := by
          rintro c ⟨node, hnode, -⟩
          rw [hmissing] at hnode
          cases hnode
        have hdefect : ¬ Complete nodes root := by
          intro hcomplete
          obtain ⟨node, t, hnode, -⟩ := hcomplete.clocks ref href
          rw [hmissing] at hnode
          cases hnode
        refine ⟨(hentered.reject hdefect).leave hself (fun c hc => absurd hc (hnothing c))
          (fun hvalid => by cases hvalid), ?_, fun hvalid => by cases hvalid⟩
        show ((w.enter ref).colour.set ref .black).get? ref ≠ none
        rw [OrderedDict.get?_set_self]
        exact Option.some_ne_none _
      · rename_i node hnode
        split at h
        · rename_i inner hloop
          cases h
          have hmem : ref ∈ (w.enter ref).visited := List.mem_append_right _ (List.mem_singleton_self ref)
          have hclocked := hentered.clock hmem hnode
          set first := (w.enter ref).clock node.availableAt with hfirst
          have hfirstColour : first.colour = (w.enter ref).colour := colour_clock _ _
          have hfirstGrey : ∀ g, first.colour.get? g = some .grey → ∀ c, Depends nodes ref c →
              Relation.TransGen (Depends nodes) g c := by
            intro g hg c hc
            rw [hfirstColour] at hg
            by_cases hgr : g = ref
            · exact .single (hgr ▸ hc)
            · rw [show (w.enter ref).colour = w.colour.set ref .grey from rfl, OrderedDict.get?_set_ne hgr] at hg
              exact (habove g hg).tail hc
          -- the loop over the children, each of which is below the node
          have loop : ∀ (children : List (Option String)) (v last : Walk),
              (∀ c, some c ∈ children → Depends nodes ref c) → Explored nodes root v → Grows first v →
              children.foldlM (fun walk child => visit nodes depth child walk) v = .ok last →
              Explored nodes root last ∧ Grows first last ∧ (last.valid = true → v.valid = true) ∧
                (∀ c, some c ∈ children → last.colour.get? c ≠ none) ∧
                (last.valid = true → ∀ c, some c ∈ children → last.colour.get? c = some .black) := by
            intro children
            induction children with
            | nil =>
              intro v last _ hv hgrows hlast
              cases pure_ok hlast
              exact ⟨hv, hgrows, fun hvalid => hvalid, fun c hc => (List.not_mem_nil hc).elim,
                fun _ c hc => (List.not_mem_nil hc).elim⟩
            | cons child children ihc =>
              intro v last hbelow hv hgrows hlast
              rw [List.foldlM_cons] at hlast
              obtain ⟨next, hnext, hrest⟩ := bind_ok hlast
              have hgrowsNext := hgrows.trans (visit_grows hnext)
              cases child with
              | none =>
                cases depth with
                | zero => cases hnext
                | succ _ => cases hnext
              | some c =>
                have hc := hbelow c List.mem_cons_self
                obtain ⟨hnextExplored, hcolour, hblack⟩ := ih hnext hv (fun g hg => hfirstGrey g (hgrows.grey hg) c hc)
                  (href.tail hc)
                obtain ⟨hlastExplored, hgrowsLast, hvalid, hcolours, hblacks⟩ := ihc next last
                  (fun c' hc' => hbelow c' (List.mem_cons_of_mem _ hc')) hnextExplored hgrowsNext hrest
                have hlater : Grows next last := foldlM_invariant (fun _ _ _ hw hstep => hw.trans (visit_grows hstep)) hrest
                  (.refl next)
                refine ⟨hlastExplored, hgrowsLast, fun hl => visit_valid hnext (hvalid hl), fun d hd => ?_, fun hl d hd => ?_⟩
                · rcases List.mem_cons.mp hd with heq | hd
                  · cases heq
                    obtain ⟨k, hk⟩ := Option.ne_none_iff_exists'.mp hcolour
                    rw [hlater.kept c k hk]
                    exact Option.some_ne_none k
                  · exact hcolours d hd
                · rcases List.mem_cons.mp hd with heq | hd
                  · cases heq
                    exact hlater.kept c _ (hblack (hvalid hl))
                  · exact hblacks hl d hd
          obtain ⟨hinner, hgrows, -, hcolours, hblacks⟩ := loop node.dependencies first inner
            (fun c hc => ⟨node, hnode, hc⟩) hclocked (.refl first) hloop
          have hchild : ∀ c, Depends nodes ref c → some c ∈ node.dependencies := by
            rintro c ⟨node', hnode', hc⟩
            rw [hnode] at hnode'
            cases hnode'
            exact hc
          have hgrey : inner.colour.get? ref = some .grey := hgrows.kept ref _ (hfirstColour ▸ hself)
          refine ⟨hinner.leave hgrey (fun c hc => hcolours c (hchild c hc)) fun hvalid c hc =>
            hblacks hvalid c (hchild c hc), ?_, fun _ => OrderedDict.get?_set_self⟩
          show (inner.colour.set ref .black).get? ref ≠ none
          rw [OrderedDict.get?_set_self]
          exact Option.some_ne_none _
        · cases h

/-! ## The closure -/

/-- Nothing is grey after the traversal, so what was visited is what can be reached. -/
theorem visited_iff (h : visit nodes depth (some root) .start = .ok w) :
    Explored nodes root w ∧ ∀ ref, ref ∈ w.visited ↔ Reachable nodes root ref := by
  obtain ⟨hw, hroot, -⟩ := visit_explored h explored_start (fun g hg => by cases hg) .refl
  refine ⟨hw, fun ref => ⟨hw.reachable ref, fun href => ?_⟩⟩
  have hblack : ∀ r, w.colour.get? r ≠ none → w.colour.get? r = some .black := by
    intro r hr
    rcases (visit_grows h).fresh r rfl with hnone | hblack
    · exact absurd hnone hr
    · exact hblack
  rw [hw.visited]
  induction href with
  | refl => exact hroot
  | tail _ hbc ih => exact hw.closed _ (hblack _ ih) _ hbc

theorem valid_iff (h : visit nodes depth (some root) .start = .ok w) :
    w.valid = true ↔ Complete nodes root := by
  obtain ⟨hw, hvisited⟩ := visited_iff h
  constructor
  · intro hvalid
    refine ⟨fun ref href => ?_, fun ref href => ?_⟩
    · obtain ⟨node, t, hnode, ht, -⟩ := visit_clocked h (fun _ r hr => by cases hr) hvalid ref ((hvisited ref).mpr href)
      exact ⟨node, t, hnode, ht⟩
    · refine hw.acyclic hvalid ref ?_
      rcases (visit_grows h).fresh ref rfl with hnone | hblack
      · exact absurd hnone ((hw.visited ref).mp ((hvisited ref).mpr href))
      · exact hblack
  · intro hcomplete
    cases hvalid : w.valid with
    | true => rfl
    | false => exact absurd hcomplete (hw.rejected hvalid)

end

theorem Stamp.before_isOk_iff {a b : Stamp} : (∃ e, a.before b = .ok e) ↔ a.offset.isSome = b.offset.isSome := by
  unfold Stamp.before
  split_ifs with h
  · exact iff_of_true ⟨_, rfl⟩ h
  · exact iff_of_false (fun ⟨_, he⟩ => by cases he) h

variable {rest : List Stamp} (refs : List String)

/-- The latest of some times is one of them. -/
theorem Stamp.latest_mem {first a : Stamp} (h : Stamp.latest first rest = .ok a) :
    a ∈ first :: rest := by
  induction rest generalizing first with
  | nil => exact List.mem_singleton.mpr (pure_ok h).symm
  | cons s rest ih =>
    rw [Stamp.latest, List.foldlM_cons] at h
    obtain ⟨best, hbest, hrest⟩ := bind_ok h
    obtain ⟨earlier, -, hpick⟩ := bind_ok hbest
    have hmem := ih hrest
    rw [← pure_ok hpick] at hmem
    rcases List.mem_cons.mp hmem with rfl | hmem
    · split_ifs
      · exact List.mem_cons_of_mem _ List.mem_cons_self
      · exact List.mem_cons_self
    · exact List.mem_cons_of_mem _ (List.mem_cons_of_mem _ hmem)

/-- Times can be compared iff all have an offset or none has. -/
theorem Stamp.latest_isOk_iff {first : Stamp} :
    (∃ a, Stamp.latest first rest = .ok a) ↔ ∀ t ∈ rest, t.offset.isSome = first.offset.isSome := by
  induction rest generalizing first with
  | nil => exact iff_of_true ⟨first, rfl⟩ fun t ht => by cases ht
  | cons s rest ih =>
    rw [Stamp.latest, List.foldlM_cons]
    by_cases hsame : first.offset.isSome = s.offset.isSome
    · have hbest : (do return if ← first.before s then s else first : Except Failure Stamp) =
          .ok (if first.instant < s.instant then s else first) := by
        unfold Stamp.before
        rw [if_pos hsame]
        show Except.ok _ = Except.ok _
        simp
      have hoffset : (if first.instant < s.instant then s else first).offset.isSome = first.offset.isSome := by
        split_ifs
        · exact hsame.symm
        · rfl
      rw [hbest, ok_bind, List.forall_mem_cons, ← hoffset]
      exact ih.trans (and_iff_right (hsame ▸ hoffset.symm)).symm
    · refine iff_of_false ?_ fun h => hsame (h s List.mem_cons_self).symm
      rintro ⟨a, ha⟩
      obtain ⟨best, hbest, -⟩ := bind_ok ha
      obtain ⟨earlier, hearlier, -⟩ := bind_ok hbest
      exact hsame (Stamp.before_isOk_iff.mp ⟨earlier, hearlier⟩)

theorem sortedSet_nodup : (sortedSet refs).Nodup :=
  (List.perm_insertionSort _ _).nodup_iff.mpr (List.nodup_dedup refs)

theorem sortedSet_sorted : (sortedSet refs).Pairwise (· ≤ ·) := List.pairwise_insertionSort _ _

/-- **The closure is exact iff the clocks of a complete closure can be compared**, for a depth that is more than the
number of nodes. -/
theorem exactClosure_iff {nodes : Nodes} (hrefs : References nodes) (root : String) {depth : Nat}
    (hdepth : nodes.keys.length < depth) :
    ExactClosure nodes root depth ↔ (Complete nodes root → Comparable nodes root) := by
  have hwhites : whites nodes .start < depth := lt_of_le_of_lt (List.length_filter_le _ _) hdepth
  obtain ⟨w, hvisit⟩ : ∃ w, visit nodes depth (some root) .start = .ok w := visit_total hrefs hwhites
  obtain ⟨hw, hvisited⟩ := visited_iff hvisit
  have hvalid := valid_iff hvisit
  have hmem : ∀ ref, ref ∈ sortedSet w.visited ↔ Reachable nodes root ref := fun ref =>
    mem_sortedSet.trans (hvisited ref)
  have hclocked : w.valid = true → ∀ ref, Reachable nodes root ref → ∃ node t, nodes.get? ref = some node ∧
      node.availableAt = some t ∧ t ∈ w.times := fun hv ref href =>
    visit_clocked hvisit (fun _ r hr => by cases hr) hv ref ((hvisited ref).mpr href)
  unfold ExactClosure dependencyClosure
  rw [hvisit]
  dsimp only
  cases hv : w.valid with
  | false =>
    have hdefect : ¬ Complete nodes root := fun hcomplete => by
      rw [hvalid.mpr hcomplete] at hv
      cases hv
    refine iff_of_true ⟨none, _, rfl, sortedSet_nodup _, sortedSet_sorted _, hmem, iff_of_false (by simp) hdefect,
      fun _ h => by cases h⟩ fun hcomplete => absurd hcomplete hdefect
  | true =>
    have hcomplete := hvalid.mp hv
    cases htimes : w.times with
    | nil =>
      obtain ⟨_, t, -, -, ht⟩ := hclocked hv root .refl
      rw [htimes] at ht
      cases ht
    | cons first rest =>
      have hcomparable : Comparable nodes root ↔ ∀ t ∈ rest, t.offset.isSome = first.offset.isSome := by
        have htime : ∀ t, t ∈ w.times ↔ ∃ ref node, Reachable nodes root ref ∧ nodes.get? ref = some node ∧
            node.availableAt = some t := by
          intro t
          constructor
          · intro ht
            obtain ⟨r, hr, node, hnode, hclock⟩ := hw.times t ht
            exact ⟨r, node, hw.reachable r hr, hnode, hclock⟩
          · rintro ⟨r, node, hr, hnode, hclock⟩
            obtain ⟨node', t', hnode', hclock', ht'⟩ := hclocked hv r hr
            rw [hnode] at hnode'
            cases hnode'
            rw [hclock] at hclock'
            cases hclock'
            exact ht'
        rw [htimes] at htime
        constructor
        · rintro ⟨aware, hall⟩ t ht
          obtain ⟨r, node, hr, hnode, hclock⟩ := (htime t).mp (List.mem_cons_of_mem _ ht)
          obtain ⟨r', node', hr', hnode', hclock'⟩ := (htime first).mp List.mem_cons_self
          rw [hall r node t hr hnode hclock, hall r' node' first hr' hnode' hclock']
        · intro hall
          refine ⟨first.offset.isSome, fun r node t hr hnode hclock => ?_⟩
          rcases List.mem_cons.mp ((htime t).mpr ⟨r, node, hr, hnode, hclock⟩) with rfl | ht
          · rfl
          · exact hall t ht
      dsimp only
      rw [hcomparable, ← Stamp.latest_isOk_iff]
      constructor
      · rintro ⟨time, refs, hrun, -⟩ -
        obtain ⟨a, ha, -⟩ := map_ok hrun
        exact ⟨a, ha⟩
      · intro hlatest
        obtain ⟨a, ha⟩ := hlatest hcomplete
        refine ⟨some a, _, by rw [ha]; rfl, sortedSet_nodup _, sortedSet_sorted _, hmem, iff_of_true rfl hcomplete, ?_⟩
        intro latest hl
        cases hl
        obtain ⟨r, hr, node, hnode, hclock⟩ := hw.times a (htimes ▸ Stamp.latest_mem ha)
        refine ⟨⟨r, node, hw.reachable r hr, hnode, hclock⟩, fun ref node' t href hnode' hclock' => ?_⟩
        obtain ⟨node'', t'', hnode'', hclock'', ht⟩ := hclocked hv ref href
        rw [hnode'] at hnode''
        cases hnode''
        rw [hclock'] at hclock''
        cases hclock''
        exact Stamp.latest_le ha t (htimes ▸ ht)

/-! ## Two clocks that have no order -/

/-- A check whose clock has no offset. -/
def mixedClocks : Nodes :=
  .ofList [("plan", ⟨some ⟨5, some 0⟩, [some "check"]⟩), ("check", ⟨some ⟨3, none⟩, []⟩)]

theorem exactClosure_iff_mixedClocks :
    ExactClosure mixedClocks "plan" 3 ↔ (Complete mixedClocks "plan" → Comparable mixedClocks "plan") :=
  exactClosure_iff (by
    intro ref node hnode
    have hall : ∀ p ∈ mixedClocks.items, none ∉ p.2.dependencies := by decide
    exact hall (ref, node) (OrderedDict.mem_items.mpr hnode)) "plan" (by decide)

/-- The latest of the two cannot be found: the closure raises. -/
theorem mixedClocks_raise : ¬ ExactClosure mixedClocks "plan" 1000 := by
  have hrun : (dependencyClosure 1000 "plan" mixedClocks).toBool = false := by decide +kernel
  rintro ⟨time, refs, hout, -⟩
  rw [hout] at hrun
  cases hrun

end TraderBot.DecisionGraph
