import TraderBot.DecisionGateway.ZoneLadder
import TraderBot.Lib.Returns

/-! # Plans and their stop

The geometry check reads the lower bound of a zone for either side, so that a
stop inside the zone passes for a short; the ladder rounds a long's prices down,
and sizes go by the distance to the stop on whichever side it is. A plan has its
stop on the losing side where no price of the ladder is beyond it
(`plan_behind_stop`). -/
namespace TraderBot.DecisionGateway
open TraderBot.Lib

/-! ## The stop -/

/-- The price lies past the stop: the trade would open stopped out. -/
def Beyond (side : Side) (stopLoss price : FiniteDecimal) : Prop :=
  match side with
  | .long => price.value < stopLoss.value
  | .short => stopLoss.value < price.value

/-- The stop is on the losing side of the price. -/
def Behind (side : Side) (stopLoss price : FiniteDecimal) : Prop :=
  match side with
  | .long => stopLoss.value < price.value
  | .short => price.value < stopLoss.value

/-- The intent of a signal, with the other fields the check reads. -/
def intentOf (signal : ZoneSignal) (price : Option FiniteDecimal) (takeProfits : List FiniteDecimal) : Intent where
  side := some signal.side
  price := price
  priceMin := some signal.priceMin
  stopLoss := signal.stopLoss
  takeProfits := takeProfits

/-- Where the check passes, a plan has the stop on the losing side of every tranche. -/
def PlansBehindStop (signal : ZoneSignal) (price : Option FiniteDecimal) (takeProfits : List FiniteDecimal)
    (market : MarketContext) (risk : RiskContext) : Prop :=
  geometryError (intentOf signal price takeProfits) = none → ∀ plan,
    expandZoneToPlan signal market risk = .ok plan → ∀ t ∈ plan.tranches, Behind signal.side plan.stopLoss t.price

/-- A level has a tranche: the first one, and the others unless the market is
inside the zone and has passed their price. -/
def HasTranche (signal : ZoneSignal) (market : MarketContext) (depth : FiniteDecimal) (level : TrancheLevel)
    (price : FiniteDecimal) : Prop :=
  level.seq = 1 ∨ ¬ (FiniteDecimal.zero.lt depth = true ∧ depth.le one = true) ∨
    favorable signal.side market.p0 price = true

/-- No price of the ladder is beyond the stop: those of the levels that have a
tranche, of a narrow zone its middle. -/
def LadderBehind (signal : ZoneSignal) (market : MarketContext) (stopLoss : FiniteDecimal) : Prop :=
  ∀ height depth ratio, checkedHeight signal market = .ok height →
    depthOf signal.side market.p0 signal.near height = .ok depth → div height signal.near = .ok ratio →
      if ratio.lt narrowZoneThreshold then
        ∀ t, singleLimitTranche signal.side signal.priceMin signal.priceMax market.priceIncrement = .ok t →
          ¬ Beyond signal.side stopLoss t.price
      else
        ∀ level ∈ trancheLevels, ∀ price,
          tranchePrice signal.side signal.near height level.depth market.priceIncrement = .ok price →
            HasTranche signal market depth level price → ¬ Beyond signal.side stopLoss price

/-! ## Prices through the ladder -/

section
variable {side : Side} {p0 near height depth priceIncrement : FiniteDecimal} {s : Sizing} {ts kept : List Tranche}

theorem raising_ok {α : Type} {x : Option α} {a : α} (h : raising x = .ok a) : x = some a := by
  cases x with
  | none => cases h
  | some b =>
    cases h
    rfl

theorem chaseFirst_prices (h : chaseFirst side near ts = .ok kept) :
    kept.map Tranche.price = ts.map Tranche.price := by
  cases ts with
  | nil =>
    cases h
    rfl
  | cons t ts =>
    obtain ⟨cap, -, h⟩ := bind_ok h
    cases pure_ok h
    rfl

theorem addWeight_prices {i : Nat} {weight : FiniteDecimal} (h : addWeight ts i weight = .ok kept) :
    kept.map Tranche.price = ts.map Tranche.price := by
  unfold addWeight at h
  split at h
  · cases h
    rfl
  · rename_i t ht
    obtain ⟨sum, -, h⟩ := bind_ok h
    cases pure_ok h
    rw [List.map_set]
    refine List.ext_getElem? fun j => ?_
    rw [List.getElem?_set, List.length_map]
    split_ifs with hij hlt
    · rw [← hij, List.getElem?_map, ht]
      rfl
    · rw [← hij, List.getElem?_map, List.getElem?_eq_none (not_lt.mp hlt)]
      rfl
    · rfl

/-- The loop keeps the tranches the market has not passed. -/
theorem keepStep_prices {state state' : List Tranche × FiniteDecimal}
    (h : ts.foldlM (keepStep side p0) state = .ok state') :
    state'.1.map Tranche.price =
      state.1.map Tranche.price ++ (ts.map Tranche.price).filter (favorable side p0) := by
  induction ts generalizing state with
  | nil =>
    cases pure_ok h
    simp
  | cons t ts ih =>
    rw [List.foldlM_cons] at h
    obtain ⟨next, hnext, h⟩ := bind_ok h
    rw [ih h]
    unfold keepStep at hnext
    split_ifs at hnext with hfavorable
    · obtain ⟨weight, -, hnext⟩ := bind_ok hnext
      cases pure_ok hnext
      simp [hfavorable]
    · obtain ⟨carry, -, hnext⟩ := bind_ok hnext
      cases pure_ok hnext
      simp [hfavorable]

variable {t : Tranche} {sized : List (Tranche × FiniteDecimal)}

theorem keepStale_prices (h : keepStaleFavorableTranches side p0 (t :: ts) = .ok kept) :
    kept.map Tranche.price = t.price :: (ts.map Tranche.price).filter (favorable side p0) := by
  obtain ⟨state, hstate, h⟩ := bind_ok h
  have hprices := keepStep_prices hstate
  obtain ⟨kept', carry⟩ := state
  dsimp only at h hprices
  split_ifs at h
  · rw [addWeight_prices h, hprices]
    rfl
  · cases pure_ok h
    exact hprices

theorem baseTranches_ok (h : baseTranches side near height priceIncrement = .ok ts) :
    ∃ p1 p2 p3, ts.map Tranche.price = [p1, p2, p3] ∧
      tranchePrice side near height .zero priceIncrement = .ok p1 ∧
      tranchePrice side near height (literal 50 (-2)) priceIncrement = .ok p2 ∧
      tranchePrice side near height (literal 85 (-2)) priceIncrement = .ok p3 := by
  unfold baseTranches trancheLevels at h
  rw [List.mapM_cons, List.mapM_cons, List.mapM_cons, List.mapM_nil] at h
  obtain ⟨t1, h1, h⟩ := bind_ok h
  obtain ⟨rest, hrest, h⟩ := bind_ok h
  obtain ⟨t2, h2, hrest⟩ := bind_ok hrest
  obtain ⟨rest', hrest', hrest⟩ := bind_ok hrest
  obtain ⟨t3, h3, hrest'⟩ := bind_ok hrest'
  obtain ⟨p1, hp1, h1⟩ := bind_ok h1
  obtain ⟨p2, hp2, h2⟩ := bind_ok h2
  obtain ⟨p3, hp3, h3⟩ := bind_ok h3
  cases pure_ok h1
  cases pure_ok h2
  cases pure_ok h3
  cases pure_ok hrest'
  cases pure_ok hrest
  cases pure_ok h
  exact ⟨p1, p2, p3, rfl, hp1, hp2, hp3⟩

/-- The tranches of a ladder have the prices of the levels that have one. -/
theorem zoneLadder_prices {signal : ZoneSignal} {market : MarketContext}
    (h : zoneLadderTranches signal.side market.p0 signal.near height depth market.priceIncrement = .ok ts)
    (price : FiniteDecimal) :
    price ∈ ts.map Tranche.price ↔ ∃ level ∈ trancheLevels,
      tranchePrice signal.side signal.near height level.depth market.priceIncrement = .ok price ∧
        HasTranche signal market depth level price := by
  obtain ⟨base, hbase, h⟩ := bind_ok h
  obtain ⟨p1, p2, p3, hprices, hp1, hp2, hp3⟩ := baseTranches_ok hbase
  have hlevels : (∃ level ∈ trancheLevels,
      tranchePrice signal.side signal.near height level.depth market.priceIncrement = .ok price ∧
        HasTranche signal market depth level price) ↔
      price = p1 ∨ (price = p2 ∧ HasTranche signal market depth ⟨"t2_mid", 2, literal 50 (-2), literal 30 (-2)⟩ p2) ∨
        (price = p3 ∧ HasTranche signal market depth ⟨"t3_deep", 3, literal 85 (-2), literal 15 (-2)⟩ p3) := by
    constructor
    · rintro ⟨level, hlevel, hprice, htranche⟩
      simp only [trancheLevels, List.mem_cons, List.not_mem_nil, or_false] at hlevel
      rcases hlevel with rfl | rfl | rfl
      · exact .inl (Except.ok.inj (hprice.symm.trans hp1))
      · obtain rfl := Except.ok.inj (hprice.symm.trans hp2)
        exact .inr (.inl ⟨rfl, htranche⟩)
      · obtain rfl := Except.ok.inj (hprice.symm.trans hp3)
        exact .inr (.inr ⟨rfl, htranche⟩)
    · rintro (rfl | ⟨rfl, htranche⟩ | ⟨rfl, htranche⟩)
      · exact ⟨_, List.mem_cons_self, hp1, .inl rfl⟩
      · exact ⟨_, List.mem_cons_of_mem _ List.mem_cons_self, hp2, htranche⟩
      · exact ⟨_, List.mem_cons_of_mem _ (List.mem_cons_of_mem _ List.mem_cons_self), hp3, htranche⟩
  rw [hlevels]
  by_cases hinside : FiniteDecimal.zero.lt depth = true ∧ depth.le one = true
  · rw [if_pos hinside] at h
    obtain ⟨chased, hchased, h⟩ := bind_ok h
    have hchasedPrices := (chaseFirst_prices hchased).trans hprices
    obtain ⟨t, rest, rfl, ht, hrest⟩ := List.map_eq_cons_iff.mp hchasedPrices
    rw [keepStale_prices h, hrest, ht]
    have hfilter : price ∈ [p2, p3].filter (favorable signal.side market.p0) ↔
        (price = p2 ∧ favorable signal.side market.p0 p2 = true) ∨
          (price = p3 ∧ favorable signal.side market.p0 p3 = true) := by
      rw [List.mem_filter, List.mem_cons, List.mem_singleton]
      constructor
      · rintro ⟨rfl | rfl, hf⟩
        · exact .inl ⟨rfl, hf⟩
        · exact .inr ⟨rfl, hf⟩
      · rintro (⟨rfl, hf⟩ | ⟨rfl, hf⟩)
        · exact ⟨.inl rfl, hf⟩
        · exact ⟨.inr rfl, hf⟩
    rw [List.mem_cons, hfilter]
    simp [HasTranche, hinside]
  · rw [if_neg hinside] at h
    have hall : ts.map Tranche.price = [p1, p2, p3] := by
      obtain ⟨premium, -, h⟩ := bind_ok h
      split_ifs at h
      · rw [chaseFirst_prices h, hprices]
      · cases pure_ok h
        exact hprices
    rw [hall]
    simp [HasTranche, hinside]

/-! ## Sizes keep prices -/

/-- A tranche with a distance to the stop is not at it. -/
theorem rawQuantity_ok {r : Tranche × FiniteDecimal} (h : rawQuantity s t = .ok r) :
    r.1 = t ∧ t.price.value ≠ s.stopLoss.value := by
  obtain ⟨distance, hdistance, h⟩ := bind_ok h
  split_ifs at h with hzero
  obtain ⟨risk, -, h⟩ := bind_ok h
  obtain ⟨quantity, -, h⟩ := bind_ok h
  cases pure_ok h
  refine ⟨rfl, fun heq => hzero ?_⟩
  obtain ⟨d, hd, hdistance⟩ := bind_ok hdistance
  have hsub := Decimal.sub_coeff_zero (raising_ok hd) heq
  rw [FiniteDecimal.le_iff]
  have hfix := raising_ok hdistance
  rw [hsub] at hfix
  rw [Decimal.fix_zero_value false hfix]
  simp [FiniteDecimal.value, FiniteDecimal.signed, FiniteDecimal.zero]

theorem sizeOnce_ok (h : sizeOnce s ts = .ok sized) :
    sized.map Prod.fst = ts ∧ ∀ t ∈ ts, t.price.value ≠ s.stopLoss.value := by
  obtain ⟨raw, hraw, h⟩ := bind_ok h
  obtain ⟨total, -, h⟩ := bind_ok h
  obtain ⟨scale, -, h⟩ := bind_ok h
  have hrawFst : raw.map Prod.fst = ts :=
    (mapM_map hraw fun t r hr => (rawQuantity_ok hr).1).trans (List.map_id ts)
  have hsizedFst : sized.map Prod.fst = raw.map Prod.fst := by
    refine mapM_map h fun p r hr => ?_
    obtain ⟨scaled, -, hr⟩ := bind_ok hr
    obtain ⟨floored, -, hr⟩ := bind_ok hr
    cases pure_ok hr
    rfl
  refine ⟨hsizedFst.trans hrawFst, fun t ht => ?_⟩
  obtain ⟨r, -, hr⟩ := (mapM_ok hraw).2 t ht
  exact (rawQuantity_ok hr).2

/-- The loop only drops tranches, and leaves none at the stop. -/
theorem sizeLoop_ok {n : Nat} (h : sizeLoop s n ts = .ok sized) :
    (sized.map fun p => p.1.price).Sublist (ts.map Tranche.price) ∧
      ∀ p ∈ sized, p.1.price.value ≠ s.stopLoss.value := by
  induction n generalizing ts with
  | zero => cases h
  | succ n ih =>
    unfold sizeLoop at h
    obtain ⟨once, honce, h⟩ := bind_ok h
    obtain ⟨hfst, hne⟩ := sizeOnce_ok honce
    split at h
    · cases pure_ok h
      subst hfst
      rw [List.map_map]
      refine ⟨List.Sublist.refl _, fun p hp => hne p.1 (List.mem_map_of_mem hp)⟩
    · split_ifs at h
      obtain ⟨rest, hrest, h⟩ := bind_ok h
      obtain ⟨hsub, hbehind⟩ := ih h
      rw [addWeight_prices hrest] at hsub
      exact ⟨hsub.trans ((List.eraseIdx_sublist ts _).map _), hbehind⟩

end

/-! ## Plans -/

section
variable {signal : ZoneSignal} {market : MarketContext} {risk : RiskContext} {plan : OrderPlan}

/-- **What a plan is made of.** -/
theorem expand_ok (h : expandZoneToPlan signal market risk = .ok plan) :
    ∃ height depth mode tranches, checkedHeight signal market = .ok height ∧
      depthOf signal.side market.p0 signal.near height = .ok depth ∧
      proposedTranches signal market height depth = .ok (mode, tranches) ∧
      signal.stopLoss = some plan.stopLoss ∧
      (plan.tranches.map fun t => t.price).Sublist (tranches.map Tranche.price) ∧
      ∀ t ∈ plan.tranches, t.price.value ≠ plan.stopLoss.value := by
  obtain ⟨height, hheight, h⟩ := bind_ok h
  obtain ⟨depth, hdepth, h⟩ := bind_ok h
  split_ifs at h
  cases hstop : signal.stopLoss with
  | none =>
    rw [hstop] at h
    cases h
  | some stopLoss =>
    rw [hstop] at h
    obtain ⟨⟨mode, tranches⟩, hproposed, h⟩ := bind_ok h
    obtain ⟨sized, hsized, h⟩ := bind_ok h
    obtain ⟨invalidation, -, h⟩ := bind_ok h
    cases pure_ok h
    obtain ⟨hsub, hne⟩ := sizeLoop_ok hsized
    refine ⟨height, depth, mode, tranches, hheight, hdepth, hproposed, rfl, ?_, ?_⟩
    · rw [List.map_map]
      exact hsub
    · intro t ht
      obtain ⟨p, hp, rfl⟩ := List.mem_map.mp ht
      exact hne p hp

variable {side : Side}

theorem behind_of_not_beyond {stopLoss price : FiniteDecimal} (h : ¬ Beyond side stopLoss price)
    (hne : price.value ≠ stopLoss.value) : Behind side stopLoss price := by
  cases side with
  | long => exact lt_of_le_of_ne (not_lt.mp h) hne.symm
  | short => exact lt_of_le_of_ne (not_lt.mp h) hne

theorem not_beyond_of_behind {stopLoss price : FiniteDecimal} (h : Behind side stopLoss price) :
    ¬ Beyond side stopLoss price := by
  cases side with
  | long => exact not_lt.mpr (le_of_lt h)
  | short => exact not_lt.mpr (le_of_lt h)

/-- The ladder is behind the stop exactly when what it proposes is. -/
theorem ladderBehind_iff {height depth stopLoss : FiniteDecimal} {mode : Mode} {tranches : List Tranche}
    (hheight : checkedHeight signal market = .ok height)
    (hdepth : depthOf signal.side market.p0 signal.near height = .ok depth)
    (h : proposedTranches signal market height depth = .ok (mode, tranches)) :
    LadderBehind signal market stopLoss ↔
      ∀ price ∈ tranches.map Tranche.price, ¬ Beyond signal.side stopLoss price := by
  obtain ⟨ratio, hratio, h⟩ := bind_ok h
  have hunfold : LadderBehind signal market stopLoss ↔
      if ratio.lt narrowZoneThreshold then
        ∀ t, singleLimitTranche signal.side signal.priceMin signal.priceMax market.priceIncrement = .ok t →
          ¬ Beyond signal.side stopLoss t.price
      else
        ∀ level ∈ trancheLevels, ∀ price,
          tranchePrice signal.side signal.near height level.depth market.priceIncrement = .ok price →
            HasTranche signal market depth level price → ¬ Beyond signal.side stopLoss price := by
    constructor
    · intro hladder
      exact hladder height depth ratio hheight hdepth hratio
    · intro hladder height' depth' ratio' hheight' hdepth' hratio'
      obtain rfl := Except.ok.inj (hheight.symm.trans hheight')
      obtain rfl := Except.ok.inj (hdepth.symm.trans hdepth')
      obtain rfl := Except.ok.inj (hratio.symm.trans hratio')
      exact hladder
  rw [hunfold]
  split_ifs at h ⊢ with hnarrow
  · obtain ⟨t, ht, h⟩ := bind_ok h
    cases pure_ok h
    constructor
    · intro hall price hprice
      rw [List.map_singleton, List.mem_singleton] at hprice
      rw [hprice]
      exact hall t ht
    · intro hall t' ht'
      obtain rfl := Except.ok.inj (ht.symm.trans ht')
      exact hall t.price (by simp)
  · obtain ⟨ts, hts, h⟩ := bind_ok h
    cases pure_ok h
    constructor
    · intro hall price hprice
      obtain ⟨level, hlevel, hlevelPrice, htranche⟩ := (zoneLadder_prices hts price).mp hprice
      exact hall level hlevel price hlevelPrice htranche
    · intro hall level hlevel price hlevelPrice htranche
      exact hall price ((zoneLadder_prices hts price).mpr ⟨level, hlevel, hlevelPrice, htranche⟩)

end

/-- No tranche that was proposed is missing in the plan. -/
def NothingDropped (signal : ZoneSignal) (market : MarketContext) (plan : OrderPlan) : Prop :=
  ∀ height depth mode tranches, checkedHeight signal market = .ok height →
    depthOf signal.side market.p0 signal.near height = .ok depth →
      proposedTranches signal market height depth = .ok (mode, tranches) →
        plan.tranches.length = tranches.length

/-- **Plans and their stop.** Where no price of the ladder is beyond the stop, a
plan has its stop on the losing side of every tranche. And a plan that does, and
from which no tranche was dropped for its size, has no price of its ladder beyond
the stop. -/
theorem plan_behind_stop (signal : ZoneSignal) (price : Option FiniteDecimal) (takeProfits : List FiniteDecimal)
    (market : MarketContext) (risk : RiskContext) :
    ((∀ stopLoss, signal.stopLoss = some stopLoss → LadderBehind signal market stopLoss) →
      PlansBehindStop signal price takeProfits market risk) ∧
    ∀ plan, expandZoneToPlan signal market risk = .ok plan → NothingDropped signal market plan →
      (∀ t ∈ plan.tranches, Behind signal.side plan.stopLoss t.price) →
        LadderBehind signal market plan.stopLoss := by
  constructor
  · intro hladder _ plan hplan t ht
    obtain ⟨height, depth, mode, tranches, hheight, hdepth, hproposed, hstop, hsub, hne⟩ := expand_ok hplan
    have hall := (ladderBehind_iff hheight hdepth hproposed).mp (hladder plan.stopLoss hstop)
    exact behind_of_not_beyond (hall t.price (hsub.subset (List.mem_map_of_mem ht))) (hne t ht)
  · intro plan hplan hkept hbehind
    obtain ⟨height, depth, mode, tranches, hheight, hdepth, hproposed, -, hsub, -⟩ := expand_ok hplan
    have hlength := hkept height depth mode tranches hheight hdepth hproposed
    have hprices := hsub.eq_of_length (by rw [List.length_map, List.length_map, hlength])
    rw [ladderBehind_iff hheight hdepth hproposed, ← hprices]
    intro price hprice
    obtain ⟨t, ht, rfl⟩ := List.mem_map.mp hprice
    exact not_beyond_of_behind (hbehind t ht)

/-- A short whose stop stands inside its zone. -/
def shortZone : ZoneSignal where
  side := .short
  priceMin := literal 100 0
  priceMax := literal 110 0
  stopLoss := some (literal 104 0)

/-- A market just below the zone. -/
def quietMarket : MarketContext where
  p0 := literal 99 0
  now := (⟨2026, 6, 21, 12, 0, 0, 0, by decide⟩, some 0)
  priceIncrement := literal 1 (-1)
  quantityIncrement := literal 1 (-3)

def smallRisk : RiskContext := ⟨literal 100 0, literal 10000 0⟩

/-- The check passes, and the plan sells at 105 and 108.5 with a stop at 104. -/
theorem stop_inside_zone :
    geometryError (intentOf shortZone none []) = none ∧
      (expandZoneToPlan shortZone quietMarket smallRisk).toOption.map
        (fun plan => plan.tranches.map fun t => t.price.value) = some [100, 105, 217 / 2] ∧
      ¬ PlansBehindStop shortZone none [] quietMarket smallRisk := by
  have hcheck : geometryError (intentOf shortZone none []) = none := by decide +kernel
  have hprices : (expandZoneToPlan shortZone quietMarket smallRisk).toOption.map
      (fun plan => plan.tranches.map fun t => t.price.value) = some [100, 105, 217 / 2] := by decide +kernel
  have hstop : (expandZoneToPlan shortZone quietMarket smallRisk).toOption.map
      (fun plan => plan.stopLoss.value) = some 104 := by decide +kernel
  refine ⟨hcheck, hprices, fun hbehind => ?_⟩
  obtain ⟨plan, hplan, hprices⟩ := Option.map_eq_some_iff.mp hprices
  rw [hplan, Option.map_some, Option.some.injEq] at hstop
  have hmem : (105 : ℚ) ∈ plan.tranches.map fun t => t.price.value := by
    rw [hprices]
    decide
  obtain ⟨t, ht, hprice⟩ := List.mem_map.mp hmem
  have hlt : t.price.value < plan.stopLoss.value := hbehind hcheck plan (toOption_some hplan) t ht
  rw [hprice, hstop] at hlt
  exact absurd hlt (by norm_num)

end TraderBot.DecisionGateway
