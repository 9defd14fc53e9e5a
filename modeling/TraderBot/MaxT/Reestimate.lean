import TraderBot.Lib.OrderedDict
import TraderBot.Lib.ScatterAdd

/-! # Re-estimating a panel under resampled blocks

`reestimate_rows` copies the rows of each drawn block, gives each copy clusters of its own and builds
the weights anew; `theta_and_jackknife_se` adds up what `block_sums` kept of each block. A cluster
is whole in one block, so a copy of it has the weights of the original, and the two find the
same θ (`fast_path_is_reference`). Numbers are exact; NaN is `none`. -/
namespace TraderBot.MaxT
open TraderBot.Lib

/-! ## The panel and its blocks -/

/-- A day in microseconds. -/
def day : Int := 86400000000

/-- One row of a `PairedPanel` with `c` candidates; a decision time is a reading in
microseconds, whose days begin at multiples of a day. -/
structure PanelRow (c : Nat) where
  clusterId : String
  tDec : Int
  weight : ℚ
  mask : Bool
  diffs : Fin c → ℚ

abbrev PairedPanel (c : Nat) := List (PanelRow c)

structure BlockIndex where
  origin : Int
  blockLenDays : Int
  nBlocks : Nat
  blockOfRow : List Int
  nNonempty : Nat
  clusterSpanFrac : ℚ
  maxClusterSpanDays : ℚ

/-- `int(x)`. -/
def truncate (x : ℚ) : Int := if 0 ≤ x then ⌊x⌋ else ⌈x⌉

/-- `mask.astype(float) * weights`. -/
def PanelRow.maskedWeight {c : Nat} (row : PanelRow c) : ℚ := (if row.mask then 1 else 0) * row.weight

/-- The loop over the clusters: the first block of each. -/
def firstBlocks (pairs : List (String × Int)) : OrderedDict String Int :=
  pairs.foldl (fun first p => first.set p.1 (min ((first.get? p.1).getD p.2) p.2)) .empty

section
variable {c : Nat}

/-- `max(v) - min(v)` of the decision times of a cluster. -/
def clusterSpan (panel : PairedPanel c) (cluster : String) : Int :=
  let times := (panel.filter (·.clusterId = cluster)).map PanelRow.tDec
  times.max?.getD 0 - times.min?.getD 0

/-- `raw`: the block of each row, before clusters are kept together. -/
def rawBlocks (panel : PairedPanel c) (origin blockLenDays : Int) : List Int :=
  panel.map fun row => truncate (((row.tDec - origin : Int) : ℚ) / ((blockLenDays * day : Int) : ℚ))

/-- The block of each row. -/
def clusterBlocks (panel : PairedPanel c) (raw : List Int) : List Int :=
  let clusters := panel.map PanelRow.clusterId
  let first := firstBlocks (clusters.zip raw)
  clusters.map fun cluster => (first.get? cluster).getD 0

/-- The share of the clusters whose rows lie in several blocks. -/
def crossingShare (panel : PairedPanel c) (raw : List Int) : ℚ :=
  let pairs := (panel.map PanelRow.clusterId).zip raw
  let first := firstBlocks pairs
  let crossing := (pairs.filter fun p => p.2 ≠ (first.get? p.1).getD 0).map Prod.fst
  if first.items.length = 0 then 0 else (crossing.dedup.length : ℚ) / first.items.length

/-- `calendar_blocks`; `none` raises. -/
def calendarBlocks (panel : PairedPanel c) (blockLenDays : Int) (origin : Option Int) :
    Option BlockIndex := do
  let earliest ← (panel.map PanelRow.tDec).min?
  let origin := origin.getD (earliest - earliest % day)
  guard (blockLenDays ≠ 0 ∧ |blockLenDays| ≤ 999999999)
  let raw := rawBlocks panel origin blockLenDays
  let latest ← raw.max?
  guard (0 ≤ latest + 1)
  let block := clusterBlocks panel raw
  let weights ← addAt (latest + 1).toNat (block.zip (panel.map PanelRow.maskedWeight))
  return {
    origin, blockLenDays
    nBlocks := (latest + 1).toNat
    blockOfRow := block
    nNonempty := weights.countP (0 < ·)
    clusterSpanFrac := crossingShare panel raw
    maxClusterSpanDays :=
      ((panel.map fun row => ((clusterSpan panel row.clusterId : ℚ) / day)).max?).getD 0 }

/-! ## The estimators -/

/-- `block_sums`. -/
def blockSums (panel : PairedPanel c) (index : BlockIndex) : Option (List (Fin c → ℚ) × List ℚ) := do
  let sums ← addAt index.nBlocks (index.blockOfRow.zip (panel.map fun row j => row.diffs j * row.maskedWeight))
  let weights ← addAt index.nBlocks (index.blockOfRow.zip (panel.map PanelRow.maskedWeight))
  return (sums, weights)

/-- A row of a drawn block, with the identity of its cluster in this copy. -/
structure RowCopy (c : Nat) where
  diffs : Fin c → ℚ
  mask : Bool
  cluster : Nat × String

def PanelRow.copy (copyId : Nat) (row : PanelRow c) : RowCopy c :=
  { diffs := row.diffs, mask := row.mask, cluster := (copyId, row.clusterId) }

/-- The loop over the draws. -/
def rowCopies (panel : PairedPanel c) (index : BlockIndex) (draws : List Int) : List (RowCopy c) :=
  draws.zipIdx.flatMap fun draw =>
    ((panel.zip index.blockOfRow).filter (·.2 = draw.1)).map fun p => p.1.copy draw.2

/-- `n_c`. -/
def clusterSizes (clusters : List (Nat × String)) : OrderedDict (Nat × String) Nat :=
  clusters.foldl (fun sizes cluster => sizes.set cluster ((sizes.get? cluster).getD 0 + 1)) .empty

/-- `A / D` where the total is positive, else NaN. -/
def ratio (A D : ℚ) : Option ℚ := if 0 < D then some (A / D) else none

/-- `m * w` of a copy. -/
def copyWeight (sizes : OrderedDict (Nat × String) Nat) (row : RowCopy c) : ℚ :=
  (if row.mask then 1 else 0) * (1 / ((sizes.get? row.cluster).getD 0 : ℚ))

/-- `reestimate_rows`: θ and the total weight. -/
def reestimateRows (panel : PairedPanel c) (index : BlockIndex) (draws : List Int) :
    (Fin c → Option ℚ) × ℚ :=
  let rows := rowCopies panel index draws
  if rows = [] then (fun _ => none, 0)
  else
    let weight := copyWeight (clusterSizes (rows.map RowCopy.cluster))
    let D := (rows.map weight).sum
    let A := (rows.map fun row j => row.diffs j * weight row).sum
    (fun j => ratio (A j) D, D)

/-- What one row of instances gives: θ, the variance under the root of the standard error, and whether every
total is positive. -/
structure Estimate (c : Nat) where
  theta : Fin c → Option ℚ
  seSquared : Fin c → Option ℚ
  ok : Bool

/-- `(Q - 1) / Q * ((th_l - th_l.mean()) ** 2).sum()`. -/
def jackknife (leftOut : List (Option ℚ)) : Option ℚ := do
  let thetas ← leftOut.mapM id
  let mean := thetas.sum / thetas.length
  return ((thetas.length : ℚ) - 1) / thetas.length * (thetas.map fun theta => (theta - mean) ^ 2).sum

/-- `theta_and_jackknife_se` on one row of instances. No instances divide by zero. -/
def estimate (sums : List (Fin c → ℚ)) (weights : List ℚ) (instances : List Int) : Option (Estimate c) := do
  let Si ← instances.mapM (index? sums)
  let Wi ← instances.mapM (index? weights)
  let A := Si.sum
  let D := Wi.sum
  if instances = [] then none
  return {
    theta := fun j => ratio (A j) D
    seSquared := fun j => jackknife ((Si.zip Wi).map fun (S, W) => ratio (A j - S j) (D - W))
    ok := decide (0 < D) && Wi.all fun W => 0 < D - W }

/-- `theta_and_jackknife_se`; a vector of instances is one row. -/
def thetaAndJackknifeSe (sums : List (Fin c → ℚ)) (weights : List ℚ) (instances : List (List Int)) :
    Option (List (Estimate c) × Bool) := do
  let estimates ← instances.mapM (estimate sums weights)
  return (estimates, estimates.all Estimate.ok)

end


/-! ## Where a cluster is -/

section
variable {c : Nat} {panel : PairedPanel c} {index : BlockIndex} {blockLenDays : Int} {origin : Option Int}

theorem foldl_min (bs : List Int) (m : Int) :
    bs.foldl (fun (o : Option Int) b => some (min (o.getD b) b)) (some m) = some (bs.foldl min m) := by
  induction bs generalizing m with
  | nil => rfl
  | cons b rest ih => exact ih (min m b)

/-- **The block of a cluster is the least of its rows.** -/
theorem firstBlocks_get? (pairs : List (String × Int)) (cluster : String) :
    (firstBlocks pairs).get? cluster = ((pairs.filter (·.1 = cluster)).map Prod.snd).min? := by
  have hfold := OrderedDict.get?_foldl_set (d := .empty) Prod.fst
    (fun (o : Option Int) (p : String × Int) => min (o.getD p.2) p.2) pairs cluster
  rw [OrderedDict.get?_empty] at hfold
  rw [firstBlocks, hfold]
  cases hrows : pairs.filter (fun p => p.1 = cluster) with
  | nil => rfl
  | cons p rest =>
    have hself : min p.2 p.2 = p.2 := min_self _
    rw [List.foldl_cons, List.map_cons, List.min?_cons', Option.getD_none, hself, ← foldl_min, List.foldl_map]

/-- The block that a decision time is in. -/
def blockNumber (origin blockLenDays tDec : Int) : Int :=
  ⌊((tDec - origin : Int) : ℚ) / ((blockLenDays * day : Int) : ℚ)⌋

theorem blockNumber_mono {origin s t : Int} (hL : 0 < blockLenDays) (h : s ≤ t) :
    blockNumber origin blockLenDays s ≤ blockNumber origin blockLenDays t := by
  have hlength : (0 : ℚ) < ((blockLenDays * day : Int) : ℚ) := by
    exact_mod_cast Int.mul_pos hL (by decide)
  refine Int.floor_mono (div_le_div_of_nonneg_right ?_ hlength.le)
  exact_mod_cast Int.sub_le_sub_right h origin

theorem blockNumber_nonneg {origin t : Int} (hL : 0 < blockLenDays) (h : origin ≤ t) :
    0 ≤ blockNumber origin blockLenDays t := by
  have hzero : blockNumber origin blockLenDays origin = 0 := by simp [blockNumber]
  exact hzero ▸ blockNumber_mono hL h

theorem truncate_eq {origin t : Int} (hL : 0 < blockLenDays) (h : origin ≤ t) :
    truncate (((t - origin : Int) : ℚ) / ((blockLenDays * day : Int) : ℚ)) =
      blockNumber origin blockLenDays t := by
  have hlength : (0 : ℚ) < ((blockLenDays * day : Int) : ℚ) := by
    exact_mod_cast Int.mul_pos hL (by decide)
  have hnonneg : (0 : ℚ) ≤ ((t - origin : Int) : ℚ) := by exact_mod_cast Int.sub_nonneg.mpr h
  rw [truncate, if_pos (div_nonneg hnonneg hlength.le), blockNumber]

/-- The rows of a cluster. -/
def ofCluster (panel : PairedPanel c) (cluster : String) : List (PanelRow c) :=
    panel.filter (·.clusterId = cluster)

/-- Blocks that hold whole clusters. -/
structure WholeClusters (panel : PairedPanel c) (blockOfRow : List Int) (nBlocks : Nat)
    (blockOf : String → Nat) :
    Prop where
  blocks : blockOfRow = panel.map fun row => (blockOf row.clusterId : Int)
  inRange : ∀ row ∈ panel, blockOf row.clusterId < nBlocks

/-- Every row is in the block of the earliest row of its cluster. -/
theorem clusterBlocks_whole {start latest : Int} (hL : 0 < blockLenDays)
    (hafter : ∀ row ∈ panel, start ≤ row.tDec)
    (hlatest : (rawBlocks panel start blockLenDays).max? = some latest) :
    ∃ blockOf, WholeClusters panel (clusterBlocks panel (rawBlocks panel start blockLenDays)) (latest + 1).toNat
        blockOf ∧
      ∀ row ∈ panel, ∀ earliest, IsLeast {t | ∃ r ∈ ofCluster panel row.clusterId, r.tDec = t} earliest →
        (blockOf row.clusterId : Int) = blockNumber start blockLenDays earliest := by
  have hraw : rawBlocks panel start blockLenDays =
      panel.map fun row => blockNumber start blockLenDays row.tDec :=
    List.map_congr_left fun row hrow => truncate_eq hL (hafter row hrow)
  let least : String → Option Int := fun cluster =>
    ((ofCluster panel cluster).map fun row => blockNumber start blockLenDays row.tDec).min?
  have hfirst : ∀ cluster, (firstBlocks ((panel.map PanelRow.clusterId).zip
      (rawBlocks panel start blockLenDays))).get? cluster = least cluster := by
    intro cluster
    rw [firstBlocks_get?, hraw, List.zip_map', List.filter_map, List.map_map]
    rfl
  have hleast : ∀ row ∈ panel, ∀ first,
    IsLeast {t | ∃ r ∈ ofCluster panel row.clusterId, r.tDec = t} first →
      least row.clusterId = some (blockNumber start blockLenDays first) := by
    rintro row hrow first ⟨⟨r, hr, rfl⟩, hfirst⟩
    refine List.min?_eq_some_iff.mpr ⟨List.mem_map_of_mem hr, fun b hb => ?_⟩
    obtain ⟨r', hr', rfl⟩ := List.mem_map.mp hb
    exact blockNumber_mono hL (hfirst ⟨r', hr', rfl⟩)
  have hown : ∀ row ∈ panel, ∃ b, least row.clusterId = some b ∧ 0 ≤ b ∧
      b ≤ blockNumber start blockLenDays row.tDec := by
    intro row hrow
    have hmem : row ∈ ofCluster panel row.clusterId := List.mem_filter.mpr ⟨hrow, decide_eq_true rfl⟩
    obtain ⟨b, hb⟩ : ∃ b, least row.clusterId = some b := by
      refine Option.ne_none_iff_exists'.mp fun hnone => ?_
      have hnil := List.map_eq_nil_iff.mp (List.min?_eq_none_iff.mp hnone)
      rw [hnil] at hmem
      exact nomatch hmem
    obtain ⟨hbmem, hble⟩ := List.min?_eq_some_iff.mp hb
    obtain ⟨r, hr, rfl⟩ := List.mem_map.mp hbmem
    exact ⟨_, hb, blockNumber_nonneg hL (hafter r (List.mem_of_mem_filter hr)), hble _ (List.mem_map_of_mem hmem)⟩
  refine ⟨fun cluster => ((least cluster).getD 0).toNat, ⟨?_, ?_⟩, ?_⟩
  · rw [clusterBlocks, List.map_map]
    refine List.map_congr_left fun row hrow => ?_
    obtain ⟨b, hb, hnonneg, -⟩ := hown row hrow
    rw [Function.comp_apply, hfirst, hb, Option.getD_some, Int.toNat_of_nonneg hnonneg]
  · intro row hrow
    obtain ⟨b, hb, hnonneg, hle⟩ := hown row hrow
    have hmax := (List.max?_eq_some_iff.mp hlatest).2 (blockNumber start blockLenDays row.tDec)
      (hraw ▸ List.mem_map_of_mem hrow)
    show ((least row.clusterId).getD 0).toNat < (latest + 1).toNat
    rw [hb, Option.getD_some]
    omega
  · intro row hrow first hfirst
    obtain ⟨b, hb, hnonneg, -⟩ := hown row hrow
    have heq := hleast row hrow first hfirst
    rw [hb] at heq
    cases heq
    show ((((least row.clusterId).getD 0).toNat : Nat) : Int) = _
    rw [hb, Option.getD_some, Int.toNat_of_nonneg hnonneg]

end

/-! ## What the fast path adds up -/

section
variable {c : Nat} {panel : PairedPanel c} {index : BlockIndex} {blockOfRow : List Int} {nBlocks : Nat}
  {blockOf : String → Nat}

/-- The rows of a block. -/
def ofBlock (panel : PairedPanel c) (blockOf : String → Nat) (b : Nat) : List (PanelRow c) :=
  panel.filter (blockOf ·.clusterId = b)

def blockSum (panel : PairedPanel c) (blockOf : String → Nat) (b : Nat) : Fin c → ℚ :=
  ((ofBlock panel blockOf b).map fun row j => row.diffs j * row.maskedWeight).sum

def blockWeight (panel : PairedPanel c) (blockOf : String → Nat) (b : Nat) : ℚ :=
  ((ofBlock panel blockOf b).map PanelRow.maskedWeight).sum

variable {α : Type} {draw : Nat × Nat}

theorem addAt_blocks [AddCommMonoid α] (h : WholeClusters panel blockOfRow nBlocks blockOf)
    (f : PanelRow c → α) :
    addAt nBlocks (blockOfRow.zip (panel.map f)) =
      some ((List.range nBlocks).map fun b => ((ofBlock panel blockOf b).map f).sum) := by
  have hpairs : blockOfRow.zip (panel.map f) =
      (panel.map fun row => (blockOf row.clusterId, f row)).map fun p => ((p.1 : Int), p.2) := by
    rw [h.blocks, List.zip_map', List.map_map]
    rfl
  rw [hpairs, addAt_eq]
  · refine congrArg some (List.map_congr_left fun b _ => ?_)
    rw [List.filter_map, List.map_map]
    rfl
  · intro p hp
    obtain ⟨row, hrow, rfl⟩ := List.mem_map.mp hp
    exact h.inRange row hrow

theorem blockSums_eq (h : WholeClusters panel index.blockOfRow index.nBlocks blockOf) :
    blockSums panel index = some ((List.range index.nBlocks).map (blockSum panel blockOf),
      (List.range index.nBlocks).map (blockWeight panel blockOf)) := by
  rw [blockSums, addAt_blocks h, addAt_blocks h]
  rfl

theorem mapM_index {n : Nat} (f : Nat → α) {draws : List Nat} (h : ∀ b ∈ draws, b < n) :
    (draws.map fun b : Nat => (b : Int)).mapM (index? ((List.range n).map f)) = some (draws.map f) := by
  induction draws with
  | nil => rfl
  | cons b rest ih =>
    rw [List.map_cons, List.mapM_cons, index?_map_range f (h b List.mem_cons_self),
      ih fun b hb => h b (List.mem_cons_of_mem _ hb)]
    rfl

/-! ## What the reference adds up -/

theorem rowCopies_eq (h : WholeClusters panel index.blockOfRow index.nBlocks blockOf) (draws : List Nat) :
    rowCopies panel index (draws.map fun b : Nat => (b : Int)) =
      draws.zipIdx.flatMap fun draw => (ofBlock panel blockOf draw.1).map (·.copy draw.2) := by
  rw [rowCopies, List.zipIdx_map, List.flatMap_map]
  refine List.flatMap_congr fun draw _ => ?_
  have hzip : panel.zip index.blockOfRow = panel.map fun row => (row, (blockOf row.clusterId : Int)) := by
    rw [h.blocks]
    conv_lhs => rw [← List.map_id panel]
    rw [List.map_map, List.zip_map']
    rfl
  rw [hzip, List.filter_map, List.map_map]
  simp only [ofBlock, Prod.map, Function.comp_def, id_eq, Nat.cast_inj]

theorem clusterSizes_get? (clusters : List (Nat × String)) (cluster : Nat × String) :
    ((clusterSizes clusters).get? cluster).getD 0 = clusters.count cluster := by
  have hfold := OrderedDict.get?_foldl_set (d := .empty) id
    (fun (o : Option Nat) (_ : Nat × String) => o.getD 0 + 1) clusters cluster
  have hcount : ∀ (xs : List (Nat × String)) (o : Option Nat),
      (xs.foldl (fun o _ => some (o.getD 0 + 1)) o).getD 0 = o.getD 0 + xs.length := by
    intro xs
    induction xs with
    | nil => exact fun o => rfl
    | cons x rest ih =>
      intro o
      rw [List.foldl_cons, ih, Option.getD_some, List.length_cons]
      omega
  rw [OrderedDict.get?_empty] at hfold
  rw [clusterSizes, show (fun sizes cluster => OrderedDict.set sizes cluster ((sizes.get? cluster).getD 0 + 1)) =
    fun d x => OrderedDict.set d (id x) ((d.get? (id x)).getD 0 + 1) from rfl, hfold, hcount,
      Option.getD_none, zero_add,
    List.count_eq_length_filter]
  simp only [id_eq, beq_eq_decide]

theorem count_copy (rows : List (PanelRow c)) (copyId : Nat) (cluster : Nat × String) :
    ((rows.map (·.copy copyId)).map RowCopy.cluster).count cluster =
      if copyId = cluster.1 then (ofCluster rows cluster.2).length else 0 := by
  rw [List.map_map, List.count_eq_length_filter, List.filter_map, List.length_map]
  obtain ⟨copyId', clusterId⟩ := cluster
  split_ifs with hcopy
  · refine congrArg List.length (List.filter_congr fun row _ => ?_)
    rw [Bool.eq_iff_iff]
    simp [PanelRow.copy, hcopy]
  · refine List.length_eq_zero_iff.mpr (List.filter_eq_nil_iff.mpr fun row _ => ?_)
    simp [PanelRow.copy, hcopy]

/-- The copies of later draws are others. -/
theorem count_later (panel : PairedPanel c) (blockOf : String → Nat) (draws : List Nat) {n k : Nat}
    (hk : k < n)
    (cluster : String) :
    (((draws.zipIdx n).flatMap fun draw => (ofBlock panel blockOf draw.1).map (·.copy draw.2)).map
      RowCopy.cluster).count (k, cluster) = 0 := by
  induction draws generalizing n with
  | nil => rfl
  | cons b rest ih =>
    rw [List.zipIdx_cons, List.flatMap_cons, List.map_append, List.count_append, count_copy, if_neg hk.ne',
      ih (Nat.lt_succ_of_lt hk)]

/-- A drawn cluster has as many rows in its copy as in the panel. -/
theorem count_copies (panel : PairedPanel c) (blockOf : String → Nat) (draws : List Nat) {n : Nat}
    (hdraw : draw ∈ draws.zipIdx n) {cluster : String} (hblock : blockOf cluster = draw.1) :
    (((draws.zipIdx n).flatMap fun draw => (ofBlock panel blockOf draw.1).map (·.copy draw.2)).map
      RowCopy.cluster).count (draw.2, cluster) = (ofCluster panel cluster).length := by
  induction draws generalizing n with
  | nil => exact nomatch hdraw
  | cons b rest ih =>
    rw [List.zipIdx_cons, List.mem_cons] at hdraw
    rw [List.zipIdx_cons, List.flatMap_cons, List.map_append, List.count_append, count_copy]
    rcases hdraw with rfl | hdraw
    · rw [if_pos rfl, count_later panel blockOf rest (Nat.lt_succ_self n), add_zero]
      refine congrArg List.length ?_
      rw [ofCluster, ofBlock, List.filter_filter, ofCluster]
      refine List.filter_congr fun row _ => ?_
      by_cases hrow : row.clusterId = cluster
      · simp [hrow, hblock]
      · simp [hrow]
    · have hlater : n + 1 ≤ draw.2 := List.le_snd_of_mem_zipIdx hdraw
      rw [if_neg (by omega), ih hdraw, zero_add]

/-- The weights a panel begins with. -/
def InitialWeights (panel : PairedPanel c) : Prop :=
  ∀ row ∈ panel, row.weight = 1 / ((ofCluster panel row.clusterId).length : ℚ)

/-- The sum over the copies is the sum over the draws of the sum over the block. -/
theorem sum_copies [AddCommMonoid α] (panel : PairedPanel c) (blockOf : String → Nat)
    (draws : List Nat) (f : PanelRow c → α) (g : RowCopy c → α) (n : Nat)
    (h : ∀ draw ∈ draws.zipIdx n, ∀ row ∈ ofBlock panel blockOf draw.1, g (row.copy draw.2) = f row) :
    (((draws.zipIdx n).flatMap fun draw => (ofBlock panel blockOf draw.1).map (·.copy draw.2)).map g).sum =
      (draws.map fun b => ((ofBlock panel blockOf b).map f).sum).sum := by
  induction draws generalizing n with
  | nil => rfl
  | cons b rest ih =>
    rw [List.zipIdx_cons, List.flatMap_cons, List.map_append, List.sum_append, List.map_cons, List.sum_cons, List.map_map,
      ih _ fun draw hdraw => h draw (List.mem_cons_of_mem _ hdraw)]
    refine congrArg (· + _) (congrArg List.sum (List.map_congr_left fun row hrow => ?_))
    exact h (b, n) List.mem_cons_self row hrow

/-- The weight that is built anew is the weight of the panel. -/
theorem copy_weight (hweights : InitialWeights panel) (draws : List Nat)
    (hdraw : draw ∈ draws.zipIdx) {row : PanelRow c} (hrow : row ∈ ofBlock panel blockOf draw.1) :
    copyWeight (clusterSizes ((draws.zipIdx.flatMap fun draw =>
      (ofBlock panel blockOf draw.1).map (·.copy draw.2)).map RowCopy.cluster)) (row.copy draw.2) =
      row.maskedWeight := by
  obtain ⟨hpanel, hblock⟩ := List.mem_filter.mp hrow
  rw [copyWeight, clusterSizes_get?]
  show _ * (1 / ((List.count (draw.2, row.clusterId) _ : Nat) : ℚ)) = _
  rw [count_copies panel blockOf draws hdraw (of_decide_eq_true hblock), PanelRow.maskedWeight, hweights row hpanel]
  rfl

/-- **The reference adds up the blocks.** -/
theorem reestimateRows_eq (h : WholeClusters panel index.blockOfRow index.nBlocks blockOf)
    (hweights : InitialWeights panel) (draws : List Nat) :
    reestimateRows panel index (draws.map fun b : Nat => (b : Int)) =
      (fun j => ratio ((draws.map (blockSum panel blockOf)).sum j) (draws.map (blockWeight panel blockOf)).sum,
        (draws.map (blockWeight panel blockOf)).sum) := by
  rw [reestimateRows, rowCopies_eq h]
  dsimp only
  set rows := draws.zipIdx.flatMap fun draw => (ofBlock panel blockOf draw.1).map (·.copy draw.2) with hrows
  have hD : (rows.map (copyWeight (clusterSizes (rows.map RowCopy.cluster)))).sum =
      (draws.map (blockWeight panel blockOf)).sum :=
    sum_copies panel blockOf draws PanelRow.maskedWeight _ 0 fun draw hdraw row hrow =>
      copy_weight hweights draws hdraw hrow
  have hA : (rows.map fun row j => row.diffs j * copyWeight (clusterSizes (rows.map RowCopy.cluster)) row).sum =
      (draws.map (blockSum panel blockOf)).sum := by
    refine sum_copies panel blockOf draws (fun row j => row.diffs j * row.maskedWeight) _ 0 fun draw hdraw row hrow => ?_
    funext j
    rw [copy_weight hweights draws hdraw hrow]
    rfl
  rw [hD, hA]
  split_ifs with hempty
  · rw [hempty, List.map_nil, List.sum_nil] at hD
    simp only [← hD, ratio, lt_self_iff_false, if_false]
  · rfl

/-- θ is a number where the total is positive. -/
theorem reestimateRows_isSome (panel : PairedPanel c) (index : BlockIndex) (draws : List Int) (j : Fin c) :
    ((reestimateRows panel index draws).1 j).isSome ↔ 0 < (reestimateRows panel index draws).2 := by
  rw [reestimateRows]
  dsimp only
  split_ifs with hempty
  · simp
  · simp only [ratio]
    split_ifs with hpos
    · simp [hpos]
    · simp [hpos]

end

/-! ## The two paths -/

section
variable {c : Nat} {panel : PairedPanel c} {blockLenDays : Int} {origin : Option Int}

/-- **Every row is in the block of the earliest row of its cluster**, for every panel that is not empty. -/
theorem calendarBlocks_whole (hpanel : panel ≠ []) (hL : 0 < blockLenDays)
    (hlong : blockLenDays ≤ 999999999)
    (horigin : ∀ o ∈ origin, ∀ row ∈ panel, o ≤ row.tDec) :
    ∃ index blockOf, calendarBlocks panel blockLenDays origin = some index ∧
      WholeClusters panel index.blockOfRow index.nBlocks blockOf ∧
      ∀ row ∈ panel, ∀ earliest, IsLeast {t | ∃ r ∈ ofCluster panel row.clusterId, r.tDec = t} earliest →
        (blockOf row.clusterId : Int) = blockNumber index.origin blockLenDays earliest := by
  obtain ⟨earliest, hearliest⟩ : ∃ t, (panel.map PanelRow.tDec).min? = some t := by
    refine Option.ne_none_iff_exists'.mp fun hnone => hpanel ?_
    exact List.map_eq_nil_iff.mp (List.min?_eq_none_iff.mp hnone)
  set start := origin.getD (earliest - earliest % day) with hstart
  have hafter : ∀ row ∈ panel, start ≤ row.tDec := by
    intro row hrow
    cases horig : origin with
    | some o =>
      rw [hstart, horig]
      exact horigin o horig row hrow
    | none =>
      have hle := (List.min?_eq_some_iff.mp hearliest).2 row.tDec (List.mem_map_of_mem hrow)
      have hmod := Int.emod_nonneg earliest (show day ≠ 0 by decide)
      rw [hstart, horig]
      show earliest - earliest % day ≤ row.tDec
      omega
  obtain ⟨latest, hlatest⟩ : ∃ b, (rawBlocks panel start blockLenDays).max? = some b := by
    refine Option.ne_none_iff_exists'.mp fun hnone => hpanel ?_
    exact List.map_eq_nil_iff.mp (List.max?_eq_none_iff.mp hnone)
  obtain ⟨blockOf, hwhole, hnumber⟩ := clusterBlocks_whole hL hafter hlatest
  have hnonneg : 0 ≤ latest + 1 := by
    obtain ⟨row, hrow, hb⟩ := List.mem_map.mp (List.max?_eq_some_iff.mp hlatest).1
    rw [truncate_eq hL (hafter row hrow)] at hb
    have := blockNumber_nonneg hL (hafter row hrow)
    omega
  have hlength : blockLenDays ≠ 0 ∧ |blockLenDays| ≤ 999999999 := by
    rw [abs_of_pos hL]
    exact ⟨hL.ne', hlong⟩
  have hrun : ∃ index, calendarBlocks panel blockLenDays origin = some index ∧ index.origin = start ∧
      index.nBlocks = (latest + 1).toNat ∧
      index.blockOfRow = clusterBlocks panel (rawBlocks panel start blockLenDays) := by
    simp only [calendarBlocks, hearliest, Option.bind_eq_bind, Option.bind_some, guard, if_pos hlength, ← hstart,
      hlatest, if_pos hnonneg, addAt_blocks hwhole, Option.pure_def]
    exact ⟨_, rfl, rfl, rfl, rfl⟩
  obtain ⟨index, hindex, hindexOrigin, hn, hblocks⟩ := hrun
  refine ⟨index, blockOf, hindex, ?_, ?_⟩
  · rw [hn, hblocks]
    exact hwhole
  · rw [hindexOrigin]
    exact hnumber

/-- **The fast path is the reference.** -/
theorem estimate_eq {index : BlockIndex} {blockOf : String → Nat}
    (h : WholeClusters panel index.blockOfRow index.nBlocks blockOf) (hweights : InitialWeights panel)
    {draws : List Int} (hdraws : draws ≠ []) (hrange : ∀ b ∈ draws, 0 ≤ b ∧ b < index.nBlocks) :
    ∃ result, estimate ((List.range index.nBlocks).map (blockSum panel blockOf))
        ((List.range index.nBlocks).map (blockWeight panel blockOf)) draws = some result ∧
      result.theta = (reestimateRows panel index draws).1 ∧
      (draws.mapM (index? ((List.range index.nBlocks).map (blockWeight panel blockOf)))).map List.sum =
        some (reestimateRows panel index draws).2 := by
  obtain ⟨ds, rfl⟩ : ∃ ds : List Nat, draws = ds.map fun b : Nat => (b : Int) := by
    refine ⟨draws.map Int.toNat, ?_⟩
    rw [List.map_map]
    conv_lhs => rw [← List.map_id draws]
    exact List.map_congr_left fun b hb => (Int.toNat_of_nonneg (hrange b hb).1).symm
  have hds : ∀ b ∈ ds, b < index.nBlocks := by
    intro b hb
    exact_mod_cast (hrange b (List.mem_map_of_mem hb)).2
  simp only [reestimateRows_eq h hweights, estimate, mapM_index _ hds, Option.bind_eq_bind, Option.bind_some,
    if_neg hdraws, Option.map_some, Option.pure_def]
  exact ⟨_, rfl, rfl, trivial⟩

end

section
variable {c : Nat} {panel : PairedPanel c} {blockLenDays : Int} {origin : Option Int}

/-- **The fast estimator finds what the row-by-row reference finds**, for every array of draws that is not
empty: the same total weight,
  and the same θ where that is positive. Every row of a cluster lies in the block of
its earliest decision time. -/
theorem fast_path_is_reference (hpanel : panel ≠ []) (hweights : InitialWeights panel)
    (hL : 0 < blockLenDays)
    (hlong : blockLenDays ≤ 999999999) (horigin : ∀ o ∈ origin, ∀ row ∈ panel, o ≤ row.tDec) :
    ∃ index sums weights, calendarBlocks panel blockLenDays origin = some index ∧
      blockSums panel index = some (sums, weights) ∧
      (∀ (i : Nat) (row : PanelRow c), panel[i]? = some row → ∀ earliest,
        IsLeast {t | ∃ r ∈ panel, r.clusterId = row.clusterId ∧ r.tDec = t} earliest →
        index.blockOfRow[i]? = some (blockNumber index.origin blockLenDays earliest) ∧
          0 ≤ blockNumber index.origin blockLenDays earliest ∧
          blockNumber index.origin blockLenDays earliest < index.nBlocks) ∧
      ∀ draws : List (List Int), (∀ row ∈ draws, row ≠ [] ∧ ∀ b ∈ row, 0 ≤ b ∧ b < index.nBlocks) →
        ∃ estimates ok, thetaAndJackknifeSe sums weights draws = some (estimates, ok) ∧
          List.Forall₂ (fun row result => result.theta = (reestimateRows panel index row).1 ∧
            (row.mapM (index? weights)).map List.sum = some (reestimateRows panel index row).2 ∧
            ∀ j, (result.theta j).isSome ↔ 0 < (reestimateRows panel index row).2) draws estimates := by
  obtain ⟨index, blockOf, hindex, hwhole, hnumber⟩ := calendarBlocks_whole hpanel hL hlong horigin
  refine ⟨index, _, _, hindex, blockSums_eq hwhole, ?_, ?_⟩
  · intro i row hi earliest hearliest
    have hrow : row ∈ panel := List.mem_of_getElem? hi
    have hset : {t | ∃ r ∈ ofCluster panel row.clusterId, r.tDec = t} =
        {t | ∃ r ∈ panel, r.clusterId = row.clusterId ∧ r.tDec = t} := by
      ext t
      simp only [ofCluster, List.mem_filter, decide_eq_true_eq, Set.mem_ofPred_eq, and_assoc]
    have heq := hnumber row hrow earliest (hset ▸ hearliest)
    rw [← heq]
    refine ⟨?_, Int.natCast_nonneg _, by exact_mod_cast hwhole.inRange row hrow⟩
    rw [hwhole.blocks, List.getElem?_map, hi, Option.map_some]
  · intro draws hdraws
    have hrows : ∀ rows : List (List Int), (∀ row ∈ rows, row ≠ [] ∧ ∀ b ∈ row, 0 ≤ b ∧ b < index.nBlocks) →
        ∃ estimates, rows.mapM (estimate ((List.range index.nBlocks).map (blockSum panel blockOf))
            ((List.range index.nBlocks).map (blockWeight panel blockOf))) = some estimates ∧
          List.Forall₂ (fun row result => result.theta = (reestimateRows panel index row).1 ∧
            (row.mapM (index? ((List.range index.nBlocks).map (blockWeight panel blockOf)))).map List.sum =
              some (reestimateRows panel index row).2 ∧
            ∀ j, (result.theta j).isSome ↔ 0 < (reestimateRows panel index row).2) rows estimates := by
      intro rows
      induction rows with
      | nil => exact fun _ => ⟨[], rfl, .nil⟩
      | cons row rest ih =>
        intro h
        obtain ⟨hne, hrange⟩ := h row List.mem_cons_self
        obtain ⟨result, hresult, htheta, htotal⟩ := estimate_eq hwhole hweights hne hrange
        obtain ⟨results, hresults, hall⟩ := ih fun row hrow => h row (List.mem_cons_of_mem _ hrow)
        refine ⟨result :: results, ?_, .cons ⟨htheta, htotal, fun j => ?_⟩ hall⟩
        · rw [List.mapM_cons, hresult, hresults]
          rfl
        · rw [htheta]
          exact reestimateRows_isSome panel index row j
    obtain ⟨estimates, hestimates, hall⟩ := hrows draws hdraws
    exact ⟨estimates, estimates.all Estimate.ok, by rw [thetaAndJackknifeSe, hestimates]; rfl, hall⟩

end

/-! A panel of two clusters, one of them with two rows. -/

def threeRows : PairedPanel 1 := [
  { clusterId := "a", tDec := 0, weight := 1 / 2, mask := true, diffs := fun _ => 1 },
  { clusterId := "a", tDec := 4 * day, weight := 1 / 2, mask := true, diffs := fun _ => 3 },
  { clusterId := "b", tDec := 3 * day, weight := 1, mask := true, diffs := fun _ => 5 }]

theorem threeRows_weights : InitialWeights threeRows := by
  have hsizes : (ofCluster threeRows "a").length = 2 ∧ (ofCluster threeRows "b").length = 1 := by decide
  intro row hrow
  simp only [threeRows, List.mem_cons, List.not_mem_nil, or_false] at hrow
  rcases hrow with rfl | rfl | rfl
  · norm_num [hsizes.1]
  · norm_num [hsizes.1]
  · norm_num [hsizes.2]

theorem threeRows_after : ∀ o ∈ some 0, ∀ row ∈ threeRows, o ≤ row.tDec := by
  intro o ho row hrow
  cases ho
  simp only [threeRows, List.mem_cons, List.not_mem_nil, or_false] at hrow
  rcases hrow with rfl | rfl | rfl <;> decide

/-- The later row of a cluster is in the block of the earlier, and a block drawn twice counts twice. -/
theorem fast_path_is_reference_threeRows : ∃ index sums weights estimates ok,
    calendarBlocks threeRows 3 (some 0) = some index ∧ blockSums threeRows index = some (sums, weights) ∧
    thetaAndJackknifeSe sums weights [[0, 0, 1]] = some (estimates, ok) ∧
    List.Forall₂ (fun row result => result.theta = (reestimateRows threeRows index row).1) [[0, 0, 1]] estimates := by
  obtain ⟨index, sums, weights, hindex, hsums, -, hdraws⟩ := @fast_path_is_reference 1 threeRows 3 (some 0)
    (by simp [threeRows]) threeRows_weights (by decide) (by decide) threeRows_after
  have hblocks : (calendarBlocks threeRows 3 (some 0)).map BlockIndex.nBlocks = some 2 := by decide +kernel
  rw [hindex, Option.map_some, Option.some.injEq] at hblocks
  obtain ⟨estimates, ok, hrun, hall⟩ := hdraws [[0, 0, 1]] (by rw [hblocks]; decide)
  exact ⟨index, sums, weights, estimates, ok, hindex, hsums, hrun, hall.imp fun _ _ h => h.1⟩

/-- Without draws the reference reports a total of zero, and the fast path divides by zero. -/
theorem no_draws_raise : ∃ index sums weights, calendarBlocks threeRows 3 (some 0) = some index ∧
    blockSums threeRows index = some (sums, weights) ∧ (reestimateRows threeRows index []).2 = 0 ∧
    thetaAndJackknifeSe sums weights [[]] = none := by
  obtain ⟨index, blockOf, hindex, hwhole, -⟩ :=
    @calendarBlocks_whole 1 threeRows 3 (some 0) (by simp [threeRows]) (by decide) (by decide) threeRows_after
  exact ⟨index, _, _, hindex, blockSums_eq hwhole, rfl, rfl⟩

end TraderBot.MaxT
