import TraderBot.Lib.Returns
import TraderBot.ResearchProtocol.Splits

/-! # What the purge leaves

The rules of `purge_train` are tried in order, so a candidate that is kept failed none
of them: its label is known and mature, and it shares neither a cluster nor time with a
test. Every other candidate has the reason that was found for it. -/
namespace TraderBot.ResearchProtocol
open TraderBot.Lib

theorem plus_ok {t d u : Int} (h : plus t d = .ok u) : u = t + d := by
  unfold plus at h
  split_ifs at h
  cases h
  rfl

theorem anyOf_false {α : Type} {p : α → Except Failure Bool} {xs : List α} (h : anyOf p xs = .ok false) :
    ∀ x ∈ xs, p x = .ok false := by
  induction xs with
  | nil =>
    intro x hx
    cases hx
  | cons y ys ih =>
    unfold anyOf at h
    intro x hx
    cases hy : p y with
    | error e =>
      rw [hy] at h
      cases h
    | ok b =>
      cases b with
      | true =>
        rw [hy] at h
        cases h
      | false =>
        rw [hy] at h
        rcases List.mem_cons.mp hx with rfl | hx
        · exact hy
        · exact ih h x hx

theorem orElse_none {holds : Except Failure Bool} {reason : Reason} {rest : Except Failure (Option Reason)}
    (h : orElse holds reason rest = .ok none) : holds = .ok false ∧ rest = .ok none := by
  unfold orElse at h
  split at h
  · cases h
  · cases h
  · exact ⟨rfl, h⟩

/-- Two closed intervals have no time in common. -/
def Apart (e t : Anchor) : Prop :=
  ∀ t0 t1 start stop, e.tDec = some t0 → e.t1 = some t1 → t.tDec = some start → t.t1 = some stop →
    Disjoint (Set.Icc t0 t1) (Set.Icc start stop)

section
variable {tests : List Anchor} {embargo labelMaturity : Int} {fitTime : Option Int} {c t : Anchor}

theorem apart_of_overlaps {t0 t1 : Int} (h0 : c.tDec = some t0) (h1 : c.t1 = some t1)
    (h : overlaps tests t0 t1 = .ok false) (ht : t ∈ tests) : Apart c t := by
  have hknown : anyOf (meetsKnown t0 t1) tests = .ok false := by
    unfold overlaps at h
    split at h
    · assumption
    · exact h
  have hmeets := anyOf_false hknown t ht
  intro s0 s1 start stop hs0 hs1 hstart hstop
  cases h0.symm.trans hs0
  cases h1.symm.trans hs1
  rw [Set.disjoint_left]
  intro x hx hxt
  have hle : t0 ≤ stop := hx.1.trans hxt.2
  have hle' : start ≤ t1 := hxt.1.trans hx.2
  simp [meetsKnown, startsBy, hstop, hstart, hle, hle'] at hmeets

theorem not_shares (h : sharesCluster tests c = false) (ht : t ∈ tests) :
    t.clusterId ≠ c.clusterId ∧ t.duplicateGroupId ≠ c.duplicateGroupId := by
  unfold sharesCluster at h
  rw [Bool.or_eq_false_iff] at h
  constructor
  · intro heq
    have hmem : c.clusterId ∈ tests.map (·.clusterId) := heq ▸ List.mem_map_of_mem ht
    simp [hmem] at h
  · intro heq
    have hmem : c.duplicateGroupId ∈ tests.map (·.duplicateGroupId) := heq ▸ List.mem_map_of_mem ht
    simp [hmem] at h

/-- What is known of a candidate that is kept. -/
structure Kept (tests : List Anchor) (labelMaturity : Int) (fitTime : Option Int) (c : Anchor) : Prop where
  label : ∃ t0 t1, c.tDec = some t0 ∧ c.t1 = some t1 ∧ t0 ≤ t1 ∧ ∀ fit, fitTime = some fit → t1 + labelMaturity ≤ fit
  foreign : ∀ t ∈ tests, t.clusterId ≠ c.clusterId ∧ t.duplicateGroupId ≠ c.duplicateGroupId
  apart : ∀ t ∈ tests, Apart c t

theorem kept_of_purgeReason (h : purgeReason tests embargo labelMaturity fitTime c = .ok none) :
    Kept tests labelMaturity fitTime c := by
  unfold purgeReason at h
  split at h
  · cases h
  · cases h
  · rename_i t1 t0 h1 h0
    by_cases hlt : t1 < t0
    · rw [if_pos hlt] at h
      cases h
    · rw [if_neg hlt] at h
      obtain ⟨himmature, h⟩ := orElse_none h
      by_cases hshares : sharesCluster tests c = true
      · rw [if_pos hshares] at h
        cases h
      · rw [if_neg hshares] at h
        obtain ⟨hoverlaps, -⟩ := orElse_none h
        refine ⟨⟨t0, t1, h0, h1, not_lt.mp hlt, fun fit hfit => ?_⟩, fun t ht => ?_, fun t ht => ?_⟩
        · subst hfit
          obtain ⟨mature, hmature, hle⟩ := map_ok himmature
          rw [plus_ok hmature] at hle
          exact not_lt.mp (of_decide_eq_false hle)
        · exact not_shares (by simpa using hshares) ht
        · exact apart_of_overlaps h0 h1 hoverlaps ht

/-- A purge looked at all candidates: each is kept or has its reason. -/
structure Decides (tests : List Anchor) (embargo labelMaturity : Int) (fitTime : Option Int) (cands : List Anchor)
    (keep : List (Option String)) (why : Purged) : Prop where
  keep_mem : ∀ id ∈ keep, id ∈ cands.map (·.episodeId)
  why_mem : ∀ id, (why.get? id).isSome → id ∈ cands.map (·.episodeId)
  each : ∀ c ∈ cands, c.episodeId ∈ keep ∧ why.get? c.episodeId = none ∧
      purgeReason tests embargo labelMaturity fitTime c = .ok none ∨
    c.episodeId ∉ keep ∧ (why.get? c.episodeId).isSome

theorem purgeTrain_decides {cands : List Anchor} {keep : List (Option String)} {why : Purged}
    (hids : (cands.map (·.episodeId)).Nodup)
    (h : purgeTrain tests embargo labelMaturity fitTime cands = .ok (keep, why)) :
    Decides tests embargo labelMaturity fitTime cands keep why := by
  unfold purgeTrain at h
  induction cands using List.reverseRecOn generalizing keep why with
  | nil =>
    cases h
    exact ⟨fun id hid => (by cases hid), fun id hid => (by cases hid), fun c hc => (by cases hc)⟩
  | append_singleton cands c ih =>
    rw [List.foldlM_append] at h
    obtain ⟨⟨keep', why'⟩, hbefore, h⟩ := bind_ok h
    rw [List.foldlM_cons] at h
    obtain ⟨acc, hlast, h⟩ := bind_ok h
    obtain ⟨reason, hreason, hacc⟩ := map_ok hlast
    rw [← hacc] at h
    rw [List.map_append, List.map_cons, List.map_nil, List.nodup_append] at hids
    obtain ⟨hids, -, hdisjoint⟩ := hids
    obtain ⟨hkeep, hwhy, heach⟩ := ih hids hbefore
    have hnew : c.episodeId ∉ cands.map (·.episodeId) := fun hmem =>
      hdisjoint _ hmem _ List.mem_cons_self rfl
    have hother : ∀ d ∈ cands, d.episodeId ≠ c.episodeId := fun d hd heq => hnew (heq ▸ List.mem_map_of_mem hd)
    have hold : ∀ {id}, id ∈ cands.map (·.episodeId) → id ∈ (cands ++ [c]).map (·.episodeId) := by
      intro id hid
      rw [List.map_append]
      exact List.mem_append_left _ hid
    have hin : c.episodeId ∈ (cands ++ [c]).map (·.episodeId) := by simp
    cases reason with
    | none =>
      cases h
      refine ⟨fun id hid => ?_, fun id hid => hold (hwhy id hid), fun d hd => ?_⟩
      · rcases List.mem_append.mp hid with hid | hid
        · exact hold (hkeep id hid)
        · exact List.mem_singleton.mp hid ▸ hin
      · rcases List.mem_append.mp hd with hd | hd
        · refine (heach d hd).imp (fun hk => ⟨List.mem_append_left _ hk.1, hk.2⟩) fun hk => ⟨fun hmem => ?_, hk.2⟩
          rcases List.mem_append.mp hmem with hmem | hmem
          · exact hk.1 hmem
          · exact hother d hd (List.mem_singleton.mp hmem)
        · cases List.mem_singleton.mp hd
          refine .inl ⟨List.mem_append_right _ List.mem_cons_self, ?_, hreason⟩
          exact Option.not_isSome_iff_eq_none.mp fun hsome => hnew (hwhy _ hsome)
    | some reason =>
      cases h
      refine ⟨fun id hid => hold (hkeep id hid), fun id hid => ?_, fun d hd => ?_⟩
      · rw [OrderedDict.get?_set] at hid
        split_ifs at hid with heq
        · exact heq ▸ hin
        · exact hold (hwhy id hid)
      · rcases List.mem_append.mp hd with hd | hd
        · rw [OrderedDict.get?_set_ne (hother d hd)]
          exact heach d hd
        · cases List.mem_singleton.mp hd
          refine .inr ⟨fun hmem => hnew (hkeep _ hmem), ?_⟩
          rw [OrderedDict.get?_set_self]
          rfl

/-- Rows that are marked, and the rest. -/
theorem mark_get? (why : Purged) (rows : List Anchor) (reason : Reason) (id : Option String) :
    (mark why rows reason).get? id =
      if id ∈ rows.map (·.episodeId) then some reason else why.get? id := by
  unfold mark
  induction rows generalizing why with
  | nil => rfl
  | cons r rows ih =>
    rw [List.foldl_cons, ih, OrderedDict.get?_set, List.map_cons]
    by_cases hid : id ∈ rows.map (·.episodeId)
    · rw [if_pos hid, if_pos (List.mem_cons_of_mem _ hid)]
    · rw [if_neg hid]
      by_cases hr : id = r.episodeId
      · rw [if_pos hr, if_pos (hr ▸ List.mem_cons_self)]
      · rw [if_neg hr, if_neg fun hmem => (List.mem_cons.mp hmem).elim hr hid]

end
end TraderBot.ResearchProtocol
