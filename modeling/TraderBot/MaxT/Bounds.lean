import TraderBot.Lib.OrderStatistic
import TraderBot.Lib.Returns
import TraderBot.MaxT.Reestimate

/-! # Bounds and p-values of a panel

`max_t_panel` orders the maxima of the resampled statistics: the k-th of them makes the lower bounds, and how many are
not below a candidate's t makes its p-value. Standard errors are square roots, so the numbers of the result are those
of an ordered field with a root, that may be any function; where the panel has a result its values were
positive. -/
namespace TraderBot.MaxT
open TraderBot.Lib

/-! ## Whether a panel suffices -/

/-- How numbers are written: `f"{x:.3f}"` with the number of digits, and `f"{x}"`. -/
structure Formats where
  fixed : Nat → ℚ → String
  str : ℚ → String

structure SufficiencyFloor where
  blockLenDays : Int
  researchHorizonDays : ℚ
  embargoDays : ℚ
  minNonempty : Int
  maxClusterSpanFrac : ℚ
  maxSpanDays : Option ℚ
  longEnough : researchHorizonDays + embargoDays ≤ blockLenDays
  someBlock : 1 ≤ minNonempty

/-- `span_cap_days`. -/
def SufficiencyFloor.spanCapDays (floor : SufficiencyFloor) : ℚ := floor.maxSpanDays.getD (2 * floor.blockLenDays)

/-- `check`: why a block index does not suffice. -/
def SufficiencyFloor.check (format : Formats) (floor : SufficiencyFloor) (index : BlockIndex) : Option String :=
  if index.blockLenDays ≠ floor.blockLenDays then
    some s!"BLOCK_LEN_MISMATCH {index.blockLenDays} != 声明的 {floor.blockLenDays}"
  else if (index.nNonempty : Int) < floor.minNonempty then
    some s!"NONEMPTY_BLOCKS {index.nNonempty} < {floor.minNonempty}（block_len={floor.blockLenDays}d）"
  else if floor.maxClusterSpanFrac < index.clusterSpanFrac then
    some s!"CLUSTER_SPAN_FRAC {format.fixed 3 index.clusterSpanFrac} > {format.str floor.maxClusterSpanFrac}"
  else if floor.spanCapDays < index.maxClusterSpanDays then
    some s!"MAX_CLUSTER_SPAN {format.fixed 2 index.maxClusterSpanDays}d > {format.str floor.spanCapDays}d"
  else none

/-- Why `max_t_panel` finds the blocks of a panel insufficient. -/
def shortfall (format : Formats) (index : BlockIndex) (minNonempty : Int) :
    Option SufficiencyFloor → Option String
  | some floor => floor.check format index
  | none =>
    if (index.nNonempty : Int) < minNonempty then
      some s!"NONEMPTY_BLOCKS {index.nNonempty} < {minNonempty}（未声明 SufficiencyFloor：块长未成对，见 B20 §3.2）"
    else none

/-! ## The result -/

inductive Status where
  | ok
  | insufficient
  | contractBlocked
deriving DecidableEq

structure MaxTResult (K : Type) (c : Nat) where
  status : Status
  reason : Option String
  theta : Option (Fin c → Option ℚ) := none
  se : Option (Fin c → Option K) := none
  t : Option (Fin c → K) := none
  pAdj : Option (Fin c → ℚ) := none
  lowerBound : Option (Fin c → K) := none
  qCrit : Option K := none
  B : Int := 0
  alpha : ℚ := 1 / 20
  nBlocks : Nat := 0
  nNonemptyBlocks : Nat := 0
  blockLenDays : Int := 0

section
variable {K : Type} {c : Nat}

def MaxTResult.insufficient (base : MaxTResult K c) (reason : String) : MaxTResult K c :=
  { base with status := .insufficient, reason := some reason }

/-- θ and the standard error of each candidate, all of them finite. -/
structure Measured (K : Type) (c : Nat) where
  theta : Fin c → ℚ
  se : Fin c → K

/-- `all(isfinite(theta))` and `all(isfinite(se))`. -/
def Estimate.measured? (root : ℚ → K) (estimate : Estimate c) : Option (Measured K c) :=
  if (∀ j, (estimate.theta j).isSome) ∧ ∀ j, (estimate.seSquared j).isSome then
    some ⟨fun j => (estimate.theta j).getD 0, fun j => root ((estimate.seSquared j).getD 0)⟩
  else none

variable [Field K] [LinearOrder K]

/-- `SE_FLOOR_REL`. -/
def seFloorRel : ℚ := 1 / 10 ^ 12

/-- `any(se <= floor)`. -/
def Measured.Unstable (m : Measured K c) : Prop := ∃ j, m.se j ≤ ((seFloorRel * max 1 |m.theta j| : ℚ) : K)

instance (m : Measured K c) : Decidable m.Unstable := by unfold Measured.Unstable; infer_instance

/-- The resamples, where each of them is finite with positive standard errors. -/
def resamples? (root : ℚ → K) (estimates : List (Estimate c)) (ok : Bool) : Option (List (Measured K c)) := do
  guard ok
  let samples ← estimates.mapM (Estimate.measured? root)
  guard (∀ sample ∈ samples, ∀ j, ¬ sample.se j ≤ 0)
  return samples

def Measured.t (m : Measured K c) (j : Fin c) : K := (m.theta j : K) / m.se j

/-- `((th_b - theta) / se_b).max()` of one resample. -/
def Measured.maximum (m sample : Measured K c) : Option K :=
  (List.ofFn fun j => ((sample.theta j - m.theta j : ℚ) : K) / sample.se j).max?

/-- `p_adj` of a value among the maxima. -/
def pValue (B : Int) (maxima : List K) (t : K) : ℚ := (1 + (exceedances maxima t : ℚ)) / ((B : ℚ) + 1)

/-- What is reported once the maxima are known. -/
def MaxTResult.report (base : MaxTResult K c) (m : Measured K c) (maxima : List K) (q : K) : MaxTResult K c :=
  { base with
    status := .ok
    reason := none
    t := some m.t
    pAdj := some fun j => pValue base.B maxima (m.t j)
    lowerBound := some fun j => (m.theta j : K) - q * m.se j
    qCrit := some q }

/-- `k`. -/
def criticalIndex (alpha : ℚ) (B : Int) : Int := ⌈(1 - alpha) * ((B : ℚ) + 1)⌉

/-- `max_t_panel`, with the draws of `default_rng(seed).integers(0, Q, size=(B, Q))`; `none` raises. -/
def maxTPanel (integers : Int → Nat → Int → List (List Int)) (root : ℚ → K) (format : Formats)
    (panel : PairedPanel c) (blockLenDays B seed : Int) (alpha : ℚ) (origin : Option Int) (minNonempty : Int)
    (floor : Option SufficiencyFloor) : Option (MaxTResult K c) :=
  if c = 0 then some { status := .insufficient, reason := some "NO_CANDIDATES" }
  else do
    let index ← calendarBlocks panel blockLenDays origin
    let base : MaxTResult K c := {
      status := .insufficient, reason := none
      B, alpha, blockLenDays
      nBlocks := index.nBlocks
      nNonemptyBlocks := index.nNonempty }
    match shortfall format index minNonempty floor with
    | some why => return base.insufficient why
    | none =>
      let (sums, weights) ← blockSums panel index
      let (estimates, ok) ← thetaAndJackknifeSe sums weights [(List.range index.nBlocks).map Int.ofNat]
      let estimate ← estimates.head?
      let base := { base with
        theta := some estimate.theta
        se := some fun j => (estimate.seSquared j).map root }
      match if ok then estimate.measured? root else none with
      | none => return base.insufficient "ZERO_DENOMINATOR_OR_NONFINITE"
      | some m =>
        if m.Unstable then return base.insufficient "UNSTABLE_SE"
        let k := criticalIndex alpha B
        if B < k then return base.insufficient s!"K {k} > B {B}"
        let (estimates, ok) ← thetaAndJackknifeSe sums weights (integers seed index.nBlocks B)
        match resamples? root estimates ok with
        | none => return base.insufficient "RESAMPLE_ZERO_DENOMINATOR_OR_SE"
        | some samples =>
          let maxima ← samples.mapM m.maximum
          let q ← index? (maxima.insertionSort (· ≤ ·)) (k - 1)
          return base.report m maxima q

end

/-! ## What a result rests on -/

section
variable {K : Type} [Field K] [LinearOrder K] [IsStrictOrderedRing K] {c : Nat}

variable {alpha : ℚ} {m : Measured K c} {root : ℚ → K}

theorem criticalIndex_pos {B : Int} (h : alpha < 1) (hB : 0 ≤ B) : 0 < criticalIndex alpha B := by
  have hlength : (0 : ℚ) < (B : ℚ) + 1 := by
    have : (0 : ℚ) ≤ B := Int.cast_nonneg hB
    linarith
  exact Int.ceil_pos.mpr (mul_pos (sub_pos.mpr h) hlength)

/-- No rank suffices where there are no resamples. -/
theorem criticalIndex_large {B : Int} (hzero : 0 < alpha) (hone : alpha < 1) (hB : B ≤ 0) :
    B < criticalIndex alpha B := by
  have hB' : (B : ℚ) ≤ 0 := by exact_mod_cast hB
  refine Int.lt_ceil.mpr ?_
  by_cases hneg : B = 0
  · subst hneg
    simpa using hone
  · have hlt : (B : ℚ) + 1 ≤ 0 := by
      have : B + 1 ≤ 0 := by omega
      exact_mod_cast this
    nlinarith

theorem Measured.se_pos (h : ¬ m.Unstable) (j : Fin c) : 0 < m.se j := by
  have habove := not_le.mp (not_exists.mp h j)
  refine lt_of_le_of_lt ?_ habove
  have hfloor : (0 : ℚ) ≤ seFloorRel * max 1 |m.theta j| :=
    mul_nonneg (by norm_num [seFloorRel]) (le_max_of_le_left zero_le_one)
  exact_mod_cast hfloor

theorem resamples?_length {estimates : List (Estimate c)} {ok : Bool}
    {samples : List (Measured K c)} (h : resamples? root estimates ok = some samples) :
    samples.length = estimates.length := by
  obtain ⟨_, -, h⟩ := Option.bind_eq_some_iff.mp h
  obtain ⟨found, hfound, h⟩ := Option.bind_eq_some_iff.mp h
  obtain ⟨_, -, h⟩ := Option.bind_eq_some_iff.mp h
  cases h
  exact mapM_length hfound

/-- A lower bound is positive iff the order statistic is below t. -/
theorem bound_pos_iff {j : Fin c} (hse : 0 < m.se j) (q : K) :
    0 < (m.theta j : K) - q * m.se j ↔ q < m.t j := by
  rw [sub_pos, Measured.t, lt_div_iff₀ hse]

theorem pValue_antitone (B : Nat) (maxima : List K) {s t : K} (h : s ≤ t) :
    pValue B maxima t ≤ pValue B maxima s := by
  unfold pValue
  rw [Int.cast_natCast]
  exact rank_mono (exceedances_antitone maxima h)

/-- The k-th of the maxima is below a value iff the p-value of it is at most α. -/
theorem critical_lt_iff {maxima : List K} {q : K} (hone : alpha < 1)
    (hk : criticalIndex alpha maxima.length ≤ maxima.length)
    (hq : index? (maxima.insertionSort (· ≤ ·)) (criticalIndex alpha maxima.length - 1) = some q)
    (t : K) : q < t ↔ pValue maxima.length maxima t ≤ alpha := by
  have hpos := criticalIndex_pos hone (Int.natCast_nonneg maxima.length)
  obtain ⟨k, hk'⟩ := Int.eq_ofNat_of_zero_le (show 0 ≤ criticalIndex alpha maxima.length - 1 by omega)
  have hbound : k < (maxima.insertionSort (· ≤ ·)).length := by
    rw [(List.perm_insertionSort _ maxima).length_eq]
    omega
  rw [hk', index?, place_natCast hbound, Option.bind_some, List.getElem?_eq_getElem hbound] at hq
  cases hq
  rw [orderStatistic_lt_iff, pValue, Int.cast_natCast, rank_le_iff]
  have hceil : ⌈(1 - alpha) * ((maxima.length : ℚ) + 1)⌉ = (k : Int) + 1 := by
    have hvalue : criticalIndex alpha maxima.length = ⌈(1 - alpha) * ((maxima.length : ℚ) + 1)⌉ := by
      rw [criticalIndex, Int.cast_natCast]
    rw [← hvalue]
    omega
  rw [hceil]
  omega

/-- A report rests on as many maxima as there are resamples, and on positive standard errors. -/
theorem maxTPanel_ok {integers : Int → Nat → Int → List (List Int)} {format : Formats}
    {panel : PairedPanel c} {blockLenDays B seed : Int} {origin : Option Int} {minNonempty : Int}
    {floor : Option SufficiencyFloor} {result : MaxTResult K c}
    (h : maxTPanel integers root format panel blockLenDays B seed alpha origin minNonempty floor = some result)
    (hok : result.status = .ok) :
    ∃ base m maxima q Q, 0 < Q ∧ base.B = B ∧ result = MaxTResult.report base m maxima q ∧ (∀ j, 0 < m.se j) ∧
      criticalIndex alpha B ≤ B ∧ maxima.length = (integers seed Q B).length ∧
      index? (maxima.insertionSort (· ≤ ·)) (criticalIndex alpha B - 1) = some q := by
  unfold maxTPanel at h
  split_ifs at h
  · cases h
    cases hok
  obtain ⟨index, -, h⟩ := Option.bind_eq_some_iff.mp h
  dsimp only at h
  split at h
  · cases h
    cases hok
  obtain ⟨⟨sums, weights⟩, -, h⟩ := Option.bind_eq_some_iff.mp h
  obtain ⟨⟨estimates, ok⟩, hestimates, h⟩ := Option.bind_eq_some_iff.mp h
  obtain ⟨estimate, -, h⟩ := Option.bind_eq_some_iff.mp h
  dsimp only at h
  split at h
  · cases h
    cases hok
  rename_i m _
  split_ifs at h with hunstable hk
  · cases h
    cases hok
  · cases h
    cases hok
  obtain ⟨⟨drawn, ok'⟩, hdrawn, h⟩ := Option.bind_eq_some_iff.mp h
  dsimp only at h
  split at h
  · cases h
    cases hok
  rename_i samples hsamples
  obtain ⟨maxima, hmaxima, h⟩ := Option.bind_eq_some_iff.mp h
  obtain ⟨q, hq, h⟩ := Option.bind_eq_some_iff.mp h
  cases h
  have hblocks : 0 < index.nBlocks := by
    refine Nat.pos_of_ne_zero fun hnone => ?_
    rw [hnone] at hestimates
    cases hestimates
  refine ⟨_, m, maxima, q, index.nBlocks, hblocks, rfl, rfl, Measured.se_pos hunstable, not_lt.mp hk, ?_, hq⟩
  obtain ⟨found, hfound, hpair⟩ := Option.bind_eq_some_iff.mp hdrawn
  cases hpair
  rw [mapM_length hmaxima, resamples?_length hsamples, mapM_length hfound]

/-- **A lower bound is positive iff the adjusted p-value is at most α**, the p-values lie between 1/(B+1) and 1, and a
larger t has no larger one, whatever has been drawn. -/
theorem bounds_agree {integers : Int → Nat → Int → List (List Int)}
    (hrows : ∀ seed Q B, 0 < Q → 0 < B → (integers seed Q B).length = B.toNat) {root : ℚ → K} {format : Formats}
    {panel : PairedPanel c} {blockLenDays B seed : Int} {alpha : ℚ} (hzero : 0 < alpha) (hone : alpha < 1)
    {origin : Option Int} {minNonempty : Int} {floor : Option SufficiencyFloor} {result : MaxTResult K c}
    (h : maxTPanel integers root format panel blockLenDays B seed alpha origin minNonempty floor = some result)
    (hok : result.status = .ok) :
    ∃ t pAdj lowerBound, result.t = some t ∧ result.pAdj = some pAdj ∧ result.lowerBound = some lowerBound ∧
      (∀ j, 0 < lowerBound j ↔ pAdj j ≤ alpha) ∧
      (∀ j, 1 / ((B : ℚ) + 1) ≤ pAdj j ∧ pAdj j ≤ 1) ∧
      ∀ i j, t i ≤ t j → pAdj j ≤ pAdj i := by
  obtain ⟨base, m, maxima, q, Q, hQ, rfl, rfl, hse, hk, hlength, hq⟩ := maxTPanel_ok h hok
  have hB : 0 < base.B := by
    by_contra hB
    exact absurd hk (not_le.mpr (criticalIndex_large hzero hone (not_lt.mp hB)))
  rw [hrows seed Q base.B hQ hB] at hlength
  have hcount : base.B = (maxima.length : Int) := by omega
  refine ⟨_, _, _, rfl, rfl, rfl, fun j => ?_, fun j => ?_, fun i j hij => ?_⟩
  · rw [bound_pos_iff (hse j), hcount]
    rw [hcount] at hk hq
    exact critical_lt_iff hone hk hq (m.t j)
  · rw [hcount, pValue, Int.cast_natCast]
    exact ⟨rank_pos, rank_le_one (exceedances_le_length maxima (m.t j))⟩
  · rw [hcount]
    exact pValue_antitone maxima.length maxima hij

end

/-! Two blocks, each drawn once; the second candidate loses what the first one gains. -/

local instance twoBlocks_pos : NeZero 2 := ⟨by decide⟩

def twoBlocks : PairedPanel 2 := [
  { clusterId := "a", tDec := 0, weight := 1, mask := true, diffs := fun j => if j = 0 then 1 else -1 },
  { clusterId := "b", tDec := day, weight := 1, mask := true, diffs := fun j => if j = 0 then 3 else -3 }]

/-- Each resample has every block once, as `default_rng(1)` draws a single one of two blocks. -/
def everyBlockOnce (_seed : Int) (Q : Nat) (B : Int) : List (List Int) :=
  List.replicate B.toNat ((List.range Q).map Int.ofNat)

def plainFormats : Formats := ⟨fun _ x => toString x, fun x => toString x⟩

def twoBlocksResult : Option (MaxTResult ℚ 2) :=
  maxTPanel everyBlockOnce Rat.sqrt plainFormats twoBlocks 1 1 1 (1 / 2) (some 0) 2 none

theorem bounds_agree_twoBlocks : ∃ result, twoBlocksResult = some result ∧
    ∃ t pAdj lowerBound, result.t = some t ∧ result.pAdj = some pAdj ∧ result.lowerBound = some lowerBound ∧
      (∀ j, 0 < lowerBound j ↔ pAdj j ≤ 1 / 2) ∧
      (∀ j, 1 / (((1 : Int) : ℚ) + 1) ≤ pAdj j ∧ pAdj j ≤ 1) ∧
      ∀ i j, t i ≤ t j → pAdj j ≤ pAdj i := by
  have hstatus : twoBlocksResult.map MaxTResult.status = some .ok := by decide +kernel
  obtain ⟨result, hresult, hok⟩ := Option.map_eq_some_iff.mp hstatus
  refine ⟨result, hresult, bounds_agree (fun seed Q B hQ hB => ?_) (by norm_num) (by norm_num) hresult hok⟩
  rw [everyBlockOnce, List.length_replicate]

end TraderBot.MaxT
