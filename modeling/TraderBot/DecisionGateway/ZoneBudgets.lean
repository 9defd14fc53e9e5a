import TraderBot.DecisionGateway.ZoneLadder
import TraderBot.Lib.Increments
import TraderBot.Lib.Returns

/-! # The ladder within its budgets

The zone ladder with exact numbers. Weight is moved between tranches twice: from those
the market has passed, and from those whose quantity is nothing. Neither loses any
(`Carries`), so the quantities of a plan stay within the risk budget, and within the
largest notional. -/
namespace TraderBot.DecisionGateway.Exact
open TraderBot.Lib

/-! ## The ladder -/

structure ZoneSignal where
  side : String
  priceMin : ℚ
  priceMax : ℚ
  stopLoss : Option ℚ
  takeProfits : List ℚ := []
  validUntil : Option Clock := none

structure MarketContext where
  p0 : ℚ
  now : Clock
  priceIncrement : ℚ
  quantityIncrement : ℚ

structure RiskContext where
  riskBudgetUsd : ℚ
  maxNotional : ℚ

structure Tranche where
  trancheId : String
  seq : Nat
  price : ℚ
  riskWeight : ℚ
  style : Style
  limitCap : Option ℚ := none

structure PlannedTranche extends Tranche where
  quantity : ℚ

structure Invalidation where
  cancelOnPriceTouch : Option ℚ
  cancelOnCloseBeyond : ℚ
  closeBar : String := "15m"
  expiresAt : String

structure OrderPlan where
  planVersion : String := "1.1"
  policy : String := "zone-ladder-v1.0"
  mode : Mode
  tranches : List PlannedTranche
  stopLoss : ℚ
  takeProfits : List ℚ
  invalidation : Invalidation

/-- `_rest_price`. -/
def restPrice (side : Side) (price priceIncrement : ℚ) : ℚ :=
  match side with
  | .long => floorTo priceIncrement price
  | .short => ceilTo priceIncrement price

/-- `_tranche_price`. -/
def tranchePrice (side : Side) (near height depth priceIncrement : ℚ) : ℚ :=
  restPrice side (match side with | .long => near - depth * height | .short => near + depth * height) priceIncrement

/-- `_depth`, of a zone with a height. -/
def depthOf (side : Side) (p0 near height : ℚ) : ℚ :=
  match side with
  | .long => (near - p0) / height
  | .short => (p0 - near) / height

/-- `_premium`, of a near price that is not zero. -/
def premiumOf (side : Side) (p0 near : ℚ) : ℚ :=
  match side with
  | .long => (p0 - near) / near
  | .short => (near - p0) / near

/-- `_limit_cap`. -/
def limitCap (side : Side) (near : ℚ) : ℚ :=
  match side with
  | .long => near * (1 + chaseWindow.value)
  | .short => near * (1 - chaseWindow.value)

/-- The first tranche chases. -/
def chaseFirst (side : Side) (near : ℚ) (base : List Tranche) : List Tranche :=
  base.modify 0 fun t => { t with style := .chase, limitCap := some (limitCap side near) }

def addWeight (weight : ℚ) (t : Tranche) : Tranche := { t with riskWeight := t.riskWeight + weight }

/-- A price the market has not passed. -/
def favorable (side : Side) (p0 price : ℚ) : Prop :=
  match side with
  | .long => price < p0
  | .short => p0 < price

instance (side : Side) (p0 price : ℚ) : Decidable (favorable side p0 price) := by
  unfold favorable
  cases side <;> infer_instance

/-- One turn of the loop of `_keep_stale_favorable_tranches`. -/
def keepStep (side : Side) (p0 : ℚ) (state : List Tranche × ℚ) (t : Tranche) : List Tranche × ℚ :=
  if favorable side p0 t.price then (state.1 ++ [addWeight state.2 t], 0) else (state.1, state.2 + t.riskWeight)

def keepStaleFavorableTranches (side : Side) (p0 : ℚ) : List Tranche → List Tranche
  | [] => []
  | t :: ts =>
    let (kept, carry) := ts.foldl (keepStep side p0) ([t], 0)
    if carry ≠ 0 then kept.modify (kept.length - 1) (addWeight carry) else kept

/-- The tranches of the three levels. -/
def baseTranches (side : Side) (near height priceIncrement : ℚ) : List Tranche :=
  trancheLevels.map fun level => {
    trancheId := level.trancheId, seq := level.seq
    price := tranchePrice side near height level.depth.value priceIncrement
    riskWeight := level.weight.value, style := .rest }

/-- `_zone_ladder_tranches`. -/
def zoneLadderTranches (side : Side) (p0 near height depth priceIncrement : ℚ) : List Tranche :=
  let base := baseTranches side near height priceIncrement
  if 0 < depth ∧ depth ≤ 1 then keepStaleFavorableTranches side p0 (chaseFirst side near base)
  else if premiumOf side p0 near ≤ chaseWindow.value then chaseFirst side near base
  else base

/-- `_single_limit_tranche`. -/
def singleLimitTranche (side : Side) (priceMin priceMax priceIncrement : ℚ) : Tranche where
  trancheId := "t1_near"
  seq := 1
  price := restPrice side ((priceMin + priceMax) / 2) priceIncrement
  riskWeight := 1
  style := .rest

/-! ## Sizes -/

structure Sizing where
  stopLoss : ℚ
  riskBudget : ℚ
  maxNotional : ℚ
  quantityIncrement : ℚ

/-- The quantity whose loss at the stop is the tranche's share of the budget. -/
def rawQuantity (s : Sizing) (t : Tranche) : Except Stop (Tranche × ℚ) :=
  if |t.price - s.stopLoss| ≤ 0 then .error (.denied "needs_review" "invalid_stop_loss")
  else .ok (t, s.riskBudget * t.riskWeight / |t.price - s.stopLoss|)

def scaleOf (s : Sizing) (total : ℚ) : ℚ :=
  if s.maxNotional ≤ 0 then 0 else if s.maxNotional < total then s.maxNotional / total else 1

def floorToIncrement (value increment : ℚ) : ℚ := if value ≤ 0 then 0 else floorTo increment value

/-- `_size_once`. -/
def sizeOnce (s : Sizing) (tranches : List Tranche) : Except Stop (List (Tranche × ℚ)) := do
  let raw ← tranches.mapM (rawQuantity s)
  let scale := scaleOf s (raw.map fun p => p.2 * p.1.price).sum
  return raw.map fun p => (p.1, floorToIncrement (p.2 * scale) s.quantityIncrement)

/-- The tranches without one of them; its weight goes to the one after it, or to the last. -/
def dropTranche (working : List Tranche) (i : Nat) : List Tranche :=
  let rest := working.eraseIdx i
  rest.modify (if i < rest.length then i else rest.length - 1)
    (addWeight ((working[i]?.map Tranche.riskWeight).getD 0))

/-- The loop of `_sized_tranches`; `none` when it runs out of rounds. -/
def sizeLoop (s : Sizing) : Nat → List Tranche → Except Stop (Option (List (Tranche × ℚ)))
  | 0, _ => .ok none
  | n + 1, working => do
    let sized ← sizeOnce s working
    match sized.findIdx? fun p => p.2 ≤ 0 with
    | none => return some sized
    | some i =>
      if working.length = 1 then .error (.denied "needs_review" "quantity_below_increment")
      else sizeLoop s n (dropTranche working i)

def sizedTranches (s : Sizing) (tranches : List Tranche) : Except Stop (List (Tranche × ℚ)) := do
  match ← sizeLoop s (tranches.length + 1) tranches with
  | some sized => return sized
  | none => .error (.denied "needs_review" "quantity_below_increment")

/-! ## The plan -/

def invalidationOf (signal : ZoneSignal) (market : MarketContext) (side : Side) (far height : ℚ) :
    Except Stop Invalidation := do
  return {
    cancelOnPriceTouch := signal.takeProfits.head?
    cancelOnCloseBeyond :=
      match side with
      | .long => far - invalidationBuffer.value * height
      | .short => far + invalidationBuffer.value * height
    expiresAt := ← expiresAt market.now signal.validUntil }

/-- The mode and the tranches that are proposed. The narrowness of a zone at zero is a division by
zero. -/
def proposedTranches (signal : ZoneSignal) (market : MarketContext) (side : Side) (near height depth : ℚ) :
    Except Stop (Mode × List Tranche) :=
  if near = 0 then .error .decimalSignal
  else if height / near < narrowZoneThreshold.value then
    .ok (.singleLimit, [singleLimitTranche side signal.priceMin signal.priceMax market.priceIncrement])
  else .ok (.zoneLadder, zoneLadderTranches side market.p0 near height depth market.priceIncrement)

/-- `side.lower()`. -/
def sideOf? (unicode : Text.Unicode) (text : String) : Option Side :=
  if unicode.lower text = "long" then some .long else if unicode.lower text =
    "short" then some .short else none

def expandZoneToPlan (unicode : Text.Unicode) (signal : ZoneSignal) (market : MarketContext)
    (risk : RiskContext) :
    Except Stop OrderPlan :=
  match sideOf? unicode signal.side with
  | none => .error (.valueError ("unsupported side: " ++ signal.side))
  | some side =>
    if signal.priceMax ≤ signal.priceMin then .error (.valueError "price_max must be greater than price_min")
    else if market.priceIncrement ≤ 0 ∨ market.quantityIncrement ≤ 0 then
      .error (.valueError "increments must be positive")
    else
      let height := signal.priceMax - signal.priceMin
      let near := match side with | .long => signal.priceMax | .short => signal.priceMin
      let far := match side with | .long => signal.priceMin | .short => signal.priceMax
      let depth := depthOf side market.p0 near height
      if 1 < depth then .error (.denied "needs_review" "zone_penetrated")
      else
        match signal.stopLoss with
        | none => .error (.denied "needs_review" "missing_stop_loss")
        | some stopLoss => do
          let (mode, tranches) ← proposedTranches signal market side near height depth
          let sized ← sizedTranches {
            stopLoss, riskBudget := risk.riskBudgetUsd, maxNotional := risk.maxNotional
            quantityIncrement := market.quantityIncrement } tranches
          return {
            mode, tranches := sized.map fun p => { p.1 with quantity := p.2 }, stopLoss
            takeProfits := signal.takeProfits
            invalidation := ← invalidationOf signal market side far height }

/-! ## Weight that is moved -/

def weights (ts : List Tranche) : ℚ := (ts.map Tranche.riskWeight).sum

/-- The tranches after weight was moved between them: none is new, and no weight is lost. -/
structure Carries (ts ts' : List Tranche) : Prop where
  weight : weights ts' = weights ts
  seqs : (ts'.map Tranche.seq).Sublist (ts.map Tranche.seq)

section
variable {ts ts' ts'' : List Tranche} {side : Side} {p0 near height depth increment weight : ℚ}

theorem Carries.refl (ts : List Tranche) : Carries ts ts := ⟨rfl, List.Sublist.refl _⟩

theorem Carries.trans (h : Carries ts ts') (h' : Carries ts' ts'') : Carries ts ts'' :=
  ⟨h'.weight.trans h.weight, h'.seqs.trans h.seqs⟩

theorem weights_append : weights (ts ++ ts') = weights ts + weights ts' := by
  rw [weights, weights, weights, List.map_append, List.sum_append]

theorem weights_cons {t : Tranche} : weights (t :: ts) = t.riskWeight + weights ts := by
  rw [weights, weights, List.map_cons, List.sum_cons]

variable {i : Nat}

/-- Weight that is added to a tranche of the list. -/
theorem weights_modify (h : i < ts.length) :
    weights (ts.modify i (addWeight weight)) = weights ts + weight := by
  induction ts generalizing i with
  | nil => exact absurd h (Nat.not_lt_zero i)
  | cons t ts ih =>
    cases i with
    | zero =>
      rw [List.modify_zero_cons, weights_cons, weights_cons]
      show t.riskWeight + weight + weights ts = _
      ring
    | succ i => rw [List.modify_succ_cons, weights_cons, weights_cons, ih (Nat.lt_of_succ_lt_succ h), add_assoc]

theorem seqs_modify (f : Tranche → Tranche) (hf : ∀ t, (f t).seq = t.seq) (i : Nat) :
    (ts.modify i f).map Tranche.seq = ts.map Tranche.seq := by
  induction ts generalizing i with
  | nil => rw [List.modify_nil]
  | cons t ts ih =>
    cases i with
    | zero => rw [List.modify_zero_cons, List.map_cons, List.map_cons, hf]
    | succ i => rw [List.modify_succ_cons, List.map_cons, List.map_cons, ih]

theorem weights_eraseIdx (h : i < ts.length) :
    ts[i].riskWeight + weights (ts.eraseIdx i) = weights ts := by
  have hmap : i < (ts.map Tranche.riskWeight).length := by rwa [List.length_map]
  have hsum := List.add_sum_eraseIdx hmap fun _ _ => AddCommute.all _ _
  rwa [List.getElem_map, List.eraseIdx_map] at hsum

/-- A tranche that is dropped leaves its weight with another one. -/
theorem carries_dropTranche (h : i < ts.length) (hmore : ts.length ≠ 1) :
    Carries ts (dropTranche ts i) := by
  have hlength : (ts.eraseIdx i).length = ts.length - 1 := List.length_eraseIdx_of_lt h
  have htarget : (if i < (ts.eraseIdx i).length then i else (ts.eraseIdx i).length - 1) < (ts.eraseIdx i).length := by
    split_ifs <;> omega
  constructor
  · rw [dropTranche, weights_modify htarget, List.getElem?_eq_getElem h, Option.map_some, Option.getD_some, add_comm]
    exact weights_eraseIdx h
  · rw [dropTranche, seqs_modify (addWeight _) fun _ => rfl]
    exact (List.eraseIdx_sublist ts i).map Tranche.seq

theorem carries_chaseFirst : Carries ts (chaseFirst side near ts) := by
  constructor
  · cases ts with
    | nil => rfl
    | cons t ts => rfl
  · cases ts with
    | nil => exact List.Sublist.refl _
    | cons t ts => exact List.Sublist.refl _

/-- The loop keeps the weight: what is not kept is carried. -/
theorem keepStep_carries {kept : List Tranche} {carry : ℚ} {out : List Tranche × ℚ}
    (h : ts.foldl (keepStep side p0) (kept, carry) = out) :
    weights out.1 + out.2 = weights kept + carry + weights ts ∧ kept.length ≤ out.1.length ∧
      (out.1.map Tranche.seq).Sublist (kept.map Tranche.seq ++ ts.map Tranche.seq) := by
  induction ts generalizing kept carry with
  | nil =>
    rw [← h, List.map_nil, List.append_nil]
    exact ⟨(add_zero _).symm, le_rfl, List.Sublist.refl _⟩
  | cons t ts ih =>
    rw [List.foldl_cons, keepStep] at h
    split_ifs at h with hfavorable
    · obtain ⟨hweight, hlength, hseqs⟩ := ih h
      refine ⟨?_, ?_, ?_⟩
      · rw [hweight, weights_append, weights_cons, weights_cons]
        show weights kept + (t.riskWeight + carry + 0) + 0 + weights ts = _
        ring
      · rw [List.length_append] at hlength
        exact (Nat.le_add_right _ _).trans hlength
      · rw [List.map_append, List.append_assoc] at hseqs
        exact hseqs
    · obtain ⟨hweight, hlength, hseqs⟩ := ih h
      refine ⟨?_, hlength, hseqs.trans ?_⟩
      · rw [hweight, weights_cons]
        show weights kept + (carry + t.riskWeight) + weights ts = _
        ring
      · rw [List.map_cons]
        exact (List.Sublist.refl _).append (List.sublist_cons_self _ _)

theorem carries_keepStaleFavorableTranches : Carries ts (keepStaleFavorableTranches side p0 ts) := by
  cases ts with
  | nil => exact .refl []
  | cons t ts =>
    rw [keepStaleFavorableTranches]
    obtain ⟨out, hout⟩ : ∃ out, ts.foldl (keepStep side p0) ([t], 0) = out := ⟨_, rfl⟩
    obtain ⟨hweight, hlength, hseqs⟩ := keepStep_carries hout
    have hall : weights out.1 + out.2 = weights (t :: ts) := by
      rw [hweight, weights_cons, weights_cons]
      show t.riskWeight + 0 + 0 + weights ts = _
      ring
    rw [hout]
    dsimp only
    split_ifs with hcarry
    · have hlast : out.1.length - 1 < out.1.length := Nat.sub_lt hlength Nat.one_pos
      exact ⟨(weights_modify hlast).trans hall, by rwa [seqs_modify (addWeight _) fun _ => rfl]⟩
    · rw [not_not] at hcarry
      rw [hcarry, add_zero] at hall
      exact ⟨hall, hseqs⟩

/-! ## What is proposed -/

/-- The tranches of a ladder: all the weight, on levels in order. -/
structure Laddered (ts : List Tranche) : Prop where
  weight : weights ts = 1
  ordered : (ts.map Tranche.seq).Pairwise (· < ·)
  levels : ∀ t ∈ ts, 1 ≤ t.seq ∧ t.seq ≤ 3

theorem Laddered.carries (h : Laddered ts) (hcarries : Carries ts ts') : Laddered ts' where
  weight := hcarries.weight.trans h.weight
  ordered := h.ordered.sublist hcarries.seqs
  levels t ht := by
    obtain ⟨old, hold, hseq⟩ := List.mem_map.mp (hcarries.seqs.subset (List.mem_map_of_mem ht))
    exact hseq ▸ h.levels old hold

theorem baseTranches_laddered : Laddered (baseTranches side near height increment) where
  weight := by
    show (literal 55 (-2)).value + ((literal 30 (-2)).value + ((literal 15 (-2)).value + 0)) = 1
    norm_num [FiniteDecimal.value, literal, FiniteDecimal.signed]
  ordered := by
    show [1, 2, 3].Pairwise (· < ·)
    decide
  levels t ht := by
    obtain ⟨level, hlevel, rfl⟩ := List.mem_map.mp ht
    have hall : ∀ level ∈ trancheLevels, 1 ≤ level.seq ∧ level.seq ≤ 3 := by decide
    exact hall level hlevel

theorem zoneLadderTranches_laddered :
    Laddered (zoneLadderTranches side p0 near height depth increment) := by
  have hbase : Laddered (baseTranches side near height increment) := baseTranches_laddered
  rw [zoneLadderTranches]
  split_ifs
  · exact hbase.carries (carries_chaseFirst.trans carries_keepStaleFavorableTranches)
  · exact hbase.carries carries_chaseFirst
  · exact hbase

theorem proposedTranches_laddered {signal : ZoneSignal} {market : MarketContext} {mode : Mode}
    (h : proposedTranches signal market side near height depth = .ok (mode, ts)) : Laddered ts := by
  unfold proposedTranches at h
  split_ifs at h
  · cases h
    refine ⟨?_, List.pairwise_singleton _ _, fun t ht => ?_⟩
    · show (1 : ℚ) + 0 = 1
      exact add_zero 1
    · rw [List.mem_singleton.mp ht]
      exact ⟨le_rfl, Nat.le_of_ble_eq_true rfl⟩
  · cases h
    exact zoneLadderTranches_laddered

end

/-! ## Rounds -/

section
variable {s : Sizing} {ts : List Tranche} {sized : List (Tranche × ℚ)}

/-- The quantity of a tranche before it is scaled. -/
def rawOf (s : Sizing) (t : Tranche) : ℚ := s.riskBudget * t.riskWeight / |t.price - s.stopLoss|

def rawNotional (s : Sizing) (ts : List Tranche) : ℚ := (ts.map fun t => rawOf s t * t.price).sum

/-- The quantity a round gives a tranche of a list. -/
def roundQuantity (s : Sizing) (ts : List Tranche) (t : Tranche) : ℚ :=
  floorToIncrement (rawOf s t * scaleOf s (rawNotional s ts)) s.quantityIncrement

variable {t : Tranche} (total : ℚ)

theorem rawQuantity_ok {p : Tranche × ℚ} (h : rawQuantity s t = .ok p) :
    0 < |t.price - s.stopLoss| ∧ p = (t, rawOf s t) := by
  unfold rawQuantity at h
  split_ifs at h with hdistance
  exact ⟨not_le.mp hdistance, (Except.ok.inj h).symm⟩

theorem sizeOnce_ok (h : sizeOnce s ts = .ok sized) :
    (∀ t ∈ ts, 0 < |t.price - s.stopLoss|) ∧ sized = ts.map fun t => (t, roundQuantity s ts t) := by
  obtain ⟨raw, hraw, h⟩ := bind_ok h
  have hpairs : raw.map id = ts.map fun t => (t, rawOf s t) :=
    mapM_map hraw fun t p hp => (rawQuantity_ok hp).2
  rw [List.map_id] at hpairs
  refine ⟨fun t ht => ?_, ?_⟩
  · obtain ⟨p, -, hp⟩ := (mapM_ok hraw).2 t ht
    exact (rawQuantity_ok hp).1
  · have hsized := pure_ok h
    rw [hpairs, List.map_map, List.map_map] at hsized
    exact hsized.symm

/-- The rounds end with a round in which every quantity is positive. -/
theorem sizeLoop_ok {n : Nat} (h : sizeLoop s n ts = .ok (some sized)) :
    ∃ working, Carries ts working ∧ sizeOnce s working = .ok sized ∧ ∀ p ∈ sized, 0 < p.2 := by
  induction n generalizing ts with
  | zero => cases h
  | succ n ih =>
    rw [sizeLoop] at h
    obtain ⟨round, hround, h⟩ := bind_ok h
    have hlength : round.length = ts.length := by rw [(sizeOnce_ok hround).2, List.length_map]
    split at h
    · rename_i hnone
      cases pure_ok h
      refine ⟨ts, .refl ts, hround, fun p hp => ?_⟩
      have hpos := List.findIdx?_eq_none_iff.mp hnone p hp
      exact not_le.mp (of_decide_eq_false hpos)
    · rename_i i hi
      have hlt : i < ts.length := hlength ▸ (List.findIdx?_eq_some_iff_getElem.mp hi).1
      split_ifs at h with hone
      obtain ⟨working, hcarries, hworking, hpos⟩ := ih h
      exact ⟨working, (carries_dropTranche hlt hone).trans hcarries, hworking, hpos⟩

/-- A list has fewer tranches each round, so that the rounds do not run out. -/
theorem sizeLoop_ne_none {n : Nat} (h : ts.length < n) : sizeLoop s n ts ≠ .ok none := by
  induction n generalizing ts with
  | zero => exact absurd h (Nat.not_lt_zero _)
  | succ n ih =>
    intro hloop
    rw [sizeLoop] at hloop
    obtain ⟨round, hround, hloop⟩ := bind_ok hloop
    have hlength : round.length = ts.length := by rw [(sizeOnce_ok hround).2, List.length_map]
    split at hloop
    · cases pure_ok hloop
    · rename_i i hi
      have hlt : i < ts.length := hlength ▸ (List.findIdx?_eq_some_iff_getElem.mp hi).1
      split_ifs at hloop
      refine ih ?_ hloop
      rw [dropTranche, List.length_modify, List.length_eraseIdx_of_lt hlt]
      omega

/-! ## Budgets -/

theorem scaleOf_nonneg : 0 ≤ scaleOf s total := by
  unfold scaleOf
  split_ifs with hmax htotal
  · exact le_rfl
  · have hpos := not_le.mp hmax
    exact div_nonneg hpos.le (hpos.trans htotal).le
  · exact zero_le_one

theorem scaleOf_le_one : scaleOf s total ≤ 1 := by
  unfold scaleOf
  split_ifs with hmax htotal
  · exact zero_le_one
  · exact div_le_one_of_le₀ htotal.le ((not_le.mp hmax).trans htotal).le
  · exact le_rfl

/-- What is scaled to something has the largest notional at most. -/
theorem scaleOf_mul_le {total : ℚ} (h : 0 < scaleOf s total) : total * scaleOf s total ≤ s.maxNotional := by
  unfold scaleOf at h ⊢
  split_ifs at h ⊢ with hmax htotal
  · exact absurd h (lt_irrefl 0)
  · rw [mul_div_cancel₀ _ ((not_le.mp hmax).trans htotal).ne']
  · rw [mul_one]
    exact not_lt.mp htotal

theorem floorToIncrement_pos {value increment : ℚ} (hincrement : 0 < increment)
    (h : 0 < floorToIncrement value increment) :
    0 < value ∧ floorToIncrement value increment ≤ value ∧
      ∃ n : ℕ, 0 < n ∧ floorToIncrement value increment = n * increment := by
  unfold floorToIncrement at h ⊢
  split_ifs at h ⊢ with hvalue
  · exact absurd h (lt_irrefl 0)
  · exact ⟨not_le.mp hvalue, floorTo_le hincrement, floorTo_pos hincrement h⟩

/-- A quantity that is not nothing is at most the raw one, and its loss the tranche's share. -/
theorem roundQuantity_pos (hincrement : 0 < s.quantityIncrement) (h : 0 < roundQuantity s ts t) :
    0 < scaleOf s (rawNotional s ts) ∧ roundQuantity s ts t ≤ rawOf s t * scaleOf s (rawNotional s ts) ∧
      roundQuantity s ts t ≤ rawOf s t := by
  obtain ⟨hpos, hle, -⟩ := floorToIncrement_pos hincrement h
  have hscale := scaleOf_nonneg (s := s) (rawNotional s ts)
  have hraw : 0 < rawOf s t := pos_of_mul_pos_left hpos hscale
  refine ⟨pos_of_mul_pos_right hpos hraw.le, hle, hle.trans ?_⟩
  exact mul_le_of_le_one_right hraw.le (scaleOf_le_one _)

/-- A round without a quantity of nothing is within the risk budget. -/
theorem round_within_risk (hincrement : 0 < s.quantityIncrement) (hpos : ∀ t ∈ ts, 0 < roundQuantity s ts t)
    (hdistance : ∀ t ∈ ts, 0 < |t.price - s.stopLoss|) :
    (ts.map fun t => roundQuantity s ts t * |t.price - s.stopLoss|).sum ≤ s.riskBudget * weights ts := by
  rw [weights, ← List.sum_map_mul_left]
  refine List.sum_le_sum fun t ht => ?_
  calc roundQuantity s ts t * |t.price - s.stopLoss|
      ≤ rawOf s t * |t.price - s.stopLoss| :=
        mul_le_mul_of_nonneg_right (roundQuantity_pos hincrement (hpos t ht)).2.2 (hdistance t ht).le
    _ = s.riskBudget * t.riskWeight := div_mul_cancel₀ _ (hdistance t ht).ne'

theorem round_within_notional (hincrement : 0 < s.quantityIncrement)
    (hpos : ∀ t ∈ ts, 0 < roundQuantity s ts t)
    (hprices : ∀ t ∈ ts, 0 < t.price) (hsome : ts ≠ []) :
    (ts.map fun t => roundQuantity s ts t * t.price).sum ≤ s.maxNotional := by
  obtain ⟨first, hfirst⟩ := List.exists_mem_of_ne_nil ts hsome
  refine le_trans ?_ (scaleOf_mul_le (roundQuantity_pos hincrement (hpos first hfirst)).1)
  rw [rawNotional, ← List.sum_map_mul_right]
  refine List.sum_le_sum fun t ht => ?_
  rw [mul_right_comm]
  exact mul_le_mul_of_nonneg_right (roundQuantity_pos hincrement (hpos t ht)).2.1 (hprices t ht).le

end

/-! ## The plan within its budgets -/

section
variable {unicode : Text.Unicode} {signal : ZoneSignal} {market : MarketContext} {risk : RiskContext} {plan : OrderPlan}

theorem expandZoneToPlan_ok (h : expandZoneToPlan unicode signal market risk = .ok plan) :
    ∃ side near height depth stopLoss mode tranches sized, signal.stopLoss = some stopLoss ∧
      0 < market.quantityIncrement ∧
      proposedTranches signal market side near height depth = .ok (mode, tranches) ∧
      sizedTranches ⟨stopLoss, risk.riskBudgetUsd, risk.maxNotional, market.quantityIncrement⟩ tranches = .ok sized ∧
      plan.tranches = sized.map fun p => { p.1 with quantity := p.2 } := by
  unfold expandZoneToPlan at h
  split at h
  · cases h
  · rename_i side hside
    dsimp only at h
    split_ifs at h with hzone hincrements hdepth
    split at h
    · cases h
    · rename_i stopLoss hstop
      obtain ⟨⟨mode, tranches⟩, hproposed, h⟩ := bind_ok h
      obtain ⟨sized, hsized, h⟩ := bind_ok h
      obtain ⟨invalidation, -, h⟩ := bind_ok h
      have hincrement : 0 < market.quantityIncrement := not_le.mp fun hle => hincrements (.inr hle)
      cases pure_ok h
      exact ⟨side, _, _, _, stopLoss, mode, tranches, sized, hstop, hincrement, hproposed, hsized, rfl⟩

/-- **A plan is within both budgets**: its tranches share all the risk on levels in order, their
quantities are whole increments, their losses at the stop add up to no more than the risk
budget, and their notionals to no more than the largest notional. -/
theorem zone_within_budgets (hplan : expandZoneToPlan unicode signal market risk = .ok plan)
    (hprices : ∀ t ∈ plan.tranches, 0 < t.price) :
    ∃ stopLoss, signal.stopLoss = some stopLoss ∧
      (plan.tranches.map fun t => t.riskWeight).sum = 1 ∧
      (∀ t ∈ plan.tranches, ∃ n : ℕ, 0 < n ∧ t.quantity = n * market.quantityIncrement) ∧
      (plan.tranches.map fun t => t.seq).Pairwise (· < ·) ∧
      (∀ t ∈ plan.tranches, 1 ≤ t.seq ∧ t.seq ≤ 3) ∧
      (plan.tranches.map fun t => t.quantity * |t.price - stopLoss|).sum ≤ risk.riskBudgetUsd ∧
      (plan.tranches.map fun t => t.quantity * t.price).sum ≤ risk.maxNotional ∧
      ∀ s tranches, sizeLoop s (tranches.length + 1) tranches ≠ .ok none := by
  obtain ⟨side, near, height, depth, stopLoss, mode, tranches, sized, hstop, hincrement, hproposed, hsized, hplanned⟩ :=
    expandZoneToPlan_ok hplan
  set s : Sizing := ⟨stopLoss, risk.riskBudgetUsd, risk.maxNotional, market.quantityIncrement⟩ with hs
  obtain ⟨result, hloop, hresult⟩ := bind_ok hsized
  cases result with
  | none => exact absurd hloop (sizeLoop_ne_none (Nat.lt_succ_self _))
  | some round =>
    cases pure_ok hresult
    obtain ⟨working, hcarries, hround, hpositive⟩ := sizeLoop_ok hloop
    obtain ⟨hdistance, rfl⟩ := sizeOnce_ok hround
    have hladder : Laddered working := (proposedTranches_laddered hproposed).carries hcarries
    have hpos : ∀ t ∈ working, 0 < roundQuantity s working t :=
      fun t ht => hpositive _ (List.mem_map_of_mem ht)
    have hquantities : plan.tranches =
      working.map fun t => { t with quantity := roundQuantity s working t } := by
      rw [hplanned, List.map_map]
      rfl
    have hpriced : ∀ t ∈ working, 0 < t.price :=
      fun t ht => hprices _ (hquantities ▸ List.mem_map_of_mem ht)
    have hweight := hladder.weight
    refine ⟨stopLoss, hstop, ?_, ?_, ?_, ?_, ?_, ?_, fun s tranches => sizeLoop_ne_none (Nat.lt_succ_self _)⟩
    · rw [hquantities, List.map_map]
      exact hweight
    · intro planned hplanned
      rw [hquantities] at hplanned
      obtain ⟨t, ht, rfl⟩ := List.mem_map.mp hplanned
      exact (floorToIncrement_pos hincrement (hpos t ht)).2.2
    · rw [hquantities, List.map_map]
      exact hladder.ordered
    · intro planned hplanned
      rw [hquantities] at hplanned
      obtain ⟨t, ht, rfl⟩ := List.mem_map.mp hplanned
      exact hladder.levels t ht
    · rw [hquantities, List.map_map]
      have hrisk := round_within_risk hincrement hpos hdistance
      rw [hweight, mul_one] at hrisk
      exact hrisk
    · rw [hquantities, List.map_map]
      refine round_within_notional hincrement hpos hpriced fun hnone => ?_
      rw [hnone] at hweight
      exact zero_ne_one hweight

/-- A zone from 100 to 110 below the market, with the stop at 90. -/
def restingZone : ZoneSignal where
  side := "long"
  priceMin := 100
  priceMax := 110
  stopLoss := some 90

theorem noon_valid : DateTime.Valid 2026 6 21 12 0 0 0 := by decide

def marketAbove : MarketContext where
  p0 := 112
  now := (⟨2026, 6, 21, 12, 0, 0, 0, noon_valid⟩, some 0)
  priceIncrement := 1 / 10
  quantityIncrement := 1 / 1000

theorem restingZone_within_budgets : ∃ plan,
    expandZoneToPlan Text.Unicode.ascii restingZone marketAbove ⟨100, 500⟩ = .ok plan ∧
      (plan.tranches.map fun t => t.riskWeight).sum = 1 ∧
      (plan.tranches.map fun t => t.quantity * t.price).sum ≤ 500 := by
  have hruns : (expandZoneToPlan Text.Unicode.ascii restingZone marketAbove ⟨100, 500⟩).toOption.any
      (fun plan => plan.tranches.all fun t => 0 < t.price) = true := by decide +kernel
  cases hplan : expandZoneToPlan Text.Unicode.ascii restingZone marketAbove ⟨100, 500⟩ with
  | error e =>
    rw [hplan] at hruns
    cases hruns
  | ok plan =>
    rw [hplan] at hruns
    have hprices : ∀ t ∈ plan.tranches, 0 < t.price :=
      fun t ht => of_decide_eq_true (List.all_eq_true.mp hruns t ht)
    obtain ⟨-, -, hweight, -, -, -, -, hnotional, -⟩ := zone_within_budgets hplan hprices
    exact ⟨plan, rfl, hweight, hnotional⟩

end
end TraderBot.DecisionGateway.Exact
