import TraderBot.Lib.DateTime
import TraderBot.Lib.DecimalRound
import TraderBot.Lib.Machine

/-! # The trailing stop of the application

`TrailingStopController.evaluate` moves a watermark with the price and a stop
behind it. The stop is rounded to cents, whatever the price: it only tightens,
and it stays off the market as long as the nearest cent does (`trails`). -/
namespace TraderBot.Protection
open TraderBot.Lib

/-! ## The controller -/

structure AppTrailingConfig where
  callbackRate : FiniteDecimal
  minStep : FiniteDecimal := .zero
  updateIntervalSeconds : Int := 10

abbrev Clock := DateTime × Option Int

structure AppTrailingState where
  side : String
  highWatermark : Option FiniteDecimal
  lowWatermark : Option FiniteDecimal
  stopPrice : FiniteDecimal
  lastUpdatedAt : Option Clock := none

inductive TrailingAction where
  | blocked
  | hold
  | wait
  | update
  deriving DecidableEq, Repr

structure TrailingDecision where
  action : TrailingAction
  reason : String
  stopPrice : FiniteDecimal
  highWatermark : Option FiniteDecimal := none
  lowWatermark : Option FiniteDecimal := none
  deriving DecidableEq, Repr

/-- One call: a price, what is known of the feed, and the clock. -/
structure Tick where
  currentPrice : FiniteDecimal
  priceStale : Bool := false
  dataConnected : Bool := true
  now : Clock

/-- The interpreter: its Unicode tables, and `timedelta.total_seconds() < n` on a
span in microseconds, which goes through a float. -/
structure Interpreter where
  unicode : Text.Unicode
  secondsBelow : Int → Int → Bool

/-- `Decimal("1")`. -/
def one : FiniteDecimal := ⟨false, 1, 0, .one⟩

section
variable (py : Interpreter)

def isLong (side : String) : Bool := py.unicode.lower side = "long" ∨ py.unicode.lower side = "buy"

/-- `_rate_limited`; `none` is an `OverflowError`. -/
def rateLimited (lastUpdatedAt : Option Clock) (now : Clock) (seconds : Int) : Option Bool :=
  match lastUpdatedAt with
  | none => some false
  | some last => do
    let current ← DateTime.toUtc now
    let last ← DateTime.toUtc last
    return py.secondsBelow (current.toMicros - last.toMicros) seconds

/-- `watermark or current`: a watermark of zero is none. -/
def markOr (watermark : Option FiniteDecimal) (current : FiniteDecimal) : FiniteDecimal :=
  match watermark with
  | some mark => if mark.coeff = 0 then current else mark
  | none => current

/-- `min(a, b)`: the first unless the second is smaller. -/
def least (a b : FiniteDecimal) : FiniteDecimal := if b.lt a then b else a

/-- The watermark after a price. -/
def newMark (state : AppTrailingState) (current : FiniteDecimal) : FiniteDecimal :=
  if isLong py state.side then (markOr state.highWatermark current).max current
  else least (markOr state.lowWatermark current) current

/-- The watermark less the callback for a long, more for a short, in the decimal
context. -/
def trailed (config : AppTrailingConfig) (long : Bool) (mark : FiniteDecimal) : Option FiniteDecimal := do
  let factor ← if long then Decimal.sub one config.callbackRate else Decimal.add one config.callbackRate
  Decimal.mul mark factor

/-- The candidate is no tighter than the stop. -/
def loosens (long : Bool) (stop desired : FiniteDecimal) : Bool :=
  if long then desired.le stop else stop.le desired

/-- How far the candidate is past the stop. -/
def advance (long : Bool) (stop desired : FiniteDecimal) : Option FiniteDecimal :=
  if long then Decimal.sub desired stop else Decimal.sub stop desired

/-- The decision on a candidate; `none` raises. -/
def decideOn (config : AppTrailingConfig) (state : AppTrailingState) (long : Bool) (now : Clock)
    (mark desired : FiniteDecimal) : Option TrailingDecision :=
  let high := if long then some mark else state.highWatermark
  let low := if long then state.lowWatermark else some mark
  if loosens long state.stopPrice desired then some ⟨.hold, "never_loosen", state.stopPrice, high, low⟩
  else do
    let step ← advance long state.stopPrice desired
    if step.lt config.minStep then return ⟨.hold, "min_step_not_reached", state.stopPrice, high, low⟩
    else
      let limited ← rateLimited py state.lastUpdatedAt now config.updateIntervalSeconds
      if limited then return ⟨.wait, "rate_limited", state.stopPrice, high, low⟩
      else return ⟨.update, "trail_advanced", desired, high, low⟩

/-- `evaluate`; `none` raises. -/
def evaluate (config : AppTrailingConfig) (state : AppTrailingState) (tick : Tick) : Option TrailingDecision :=
  if tick.priceStale ∨ tick.dataConnected = false then
    some ⟨.blocked, "market_data_unavailable", state.stopPrice, state.highWatermark, state.lowWatermark⟩
  else do
    let long := isLong py state.side
    let mark := newMark py state tick.currentPrice
    let desired ← Decimal.quantize .halfUp (← trailed config long mark) (-2)
    decideOn py config state long tick.now mark desired

end

/-! ## Runs -/

/-- A call and the time of the last update the caller passes with it. -/
structure Call where
  tick : Tick
  lastUpdatedAt : Option Clock := none

/-- The state of a call. -/
def AppTrailingState.at (state : AppTrailingState) (call : Call) : AppTrailingState :=
  { state with lastUpdatedAt := call.lastUpdatedAt }

/-- Stop and watermarks folded back. -/
def AppTrailingState.folded (state : AppTrailingState) (d : TrailingDecision) : AppTrailingState :=
  { state with
    stopPrice := d.stopPrice, highWatermark := d.highWatermark, lowWatermark := d.lowWatermark }

section
variable (py : Interpreter)

/-- A call that raises leaves the state. -/
def trailingMachine (config : AppTrailingConfig) : Machine AppTrailingState Call (Option TrailingDecision) where
  step state call :=
    match evaluate py config (state.at call) call.tick with
    | some d => (some d, state.folded d)
    | none => (none, state)

/-- The watermark of the state's side. -/
def AppTrailingState.mark (state : AppTrailingState) : Option ℚ :=
  (if isLong py state.side then state.highWatermark else state.lowWatermark).map FiniteDecimal.value

/-- The largest price for a long, the smallest for a short. -/
def nextMark (long : Bool) (mark : Option ℚ) (price : ℚ) : ℚ :=
  match mark with
  | none => price
  | some mark => if long then max mark price else min mark price

/-- What a decision keeps, where `mark` is the extreme of the watermark and the
prices so far. -/
structure StepTrails (state : AppTrailingState) (d : TrailingDecision) (mark : Option ℚ) : Prop where
  tightens : if isLong py state.side then state.stopPrice.value ≤ d.stopPrice.value
    else d.stopPrice.value ≤ state.stopPrice.value
  watermark : (state.folded d).mark py = mark
  offMarket : d.action = .update →
    ∃ m, mark = some m ∧ if isLong py state.side then d.stopPrice.value < m else m < d.stopPrice.value

/-- Every decision of a run trails; blocked calls do not move the watermark. -/
def Trails (config : AppTrailingConfig) : Option ℚ → AppTrailingState → List Call → Prop
  | _, _, [] => True
  | mark, state, call :: calls =>
    match evaluate py config (state.at call) call.tick with
    | some d =>
      let mark := if d.action = .blocked then mark
        else some (nextMark (isLong py state.side) mark call.tick.currentPrice.value)
      StepTrails py state d mark ∧ Trails config mark (state.folded d) calls
    | none => Trails config mark state calls

/-- The nearest cent, the upper of two. -/
def centOf (x : ℚ) : ℚ := Rounding.halfUp.apply (x * 100) / 100

/-- The cent behind the new watermark tightens the stop and is not off the
market: at the watermark or past it. -/
def ReachesMark (config : AppTrailingConfig) (state : AppTrailingState) (call : Call) : Prop :=
  (call.tick.priceStale = false ∧ call.tick.dataConnected = true) ∧
    ∃ x, trailed config (isLong py state.side) (newMark py state call.tick.currentPrice) = some x ∧
      if isLong py state.side then
        state.stopPrice.value < centOf x.value ∧
          (newMark py state call.tick.currentPrice).value ≤ centOf x.value
      else
        centOf x.value < state.stopPrice.value ∧
          centOf x.value ≤ (newMark py state call.tick.currentPrice).value

end

section
variable {py : Interpreter} {config : AppTrailingConfig} {state : AppTrailingState} {call : Call}
variable {d : TrailingDecision}

theorem least_value (a b : FiniteDecimal) : (least a b).value = min a.value b.value := by
  unfold least
  split_ifs with h
  · rw [min_eq_right (FiniteDecimal.lt_iff.mp h).le]
  · rw [min_eq_left]
    exact not_lt.mp fun hlt => h (FiniteDecimal.lt_iff.mpr hlt)

variable (current : FiniteDecimal) {long : Bool}

/-- A watermark that is positive is not passed over. -/
theorem markOr_value {watermark : Option FiniteDecimal}
    (h : ∀ mark, watermark = some mark → 0 < mark.value) :
    (markOr watermark current).value = (watermark.map FiniteDecimal.value).getD current.value := by
  cases watermark with
  | none => rfl
  | some mark =>
    have hne : mark.coeff ≠ 0 := by
      intro hzero
      have hpos := h mark rfl
      rw [FiniteDecimal.value, FiniteDecimal.signed, hzero] at hpos
      simp at hpos
    rw [markOr, if_neg hne]
    rfl

/-- The watermark moves with the price. -/
theorem newMark_value (h : ∀ m, state.mark py = some m → 0 < m) :
    (newMark py state current).value = nextMark (isLong py state.side) (state.mark py) current.value := by
  unfold newMark
  unfold AppTrailingState.mark at h ⊢
  by_cases hlong : isLong py state.side = true
  · rw [if_pos hlong] at h ⊢
    rw [FiniteDecimal.max_value, markOr_value current fun mark hmark => h _ (by rw [hmark]; rfl), if_pos hlong]
    cases state.highWatermark with
    | none => exact max_self _
    | some mark => simp [nextMark, hlong]
  · rw [if_neg hlong] at h ⊢
    rw [least_value, markOr_value current fun mark hmark => h _ (by rw [hmark]; rfl), if_neg hlong]
    cases state.lowWatermark with
    | none => exact min_self _
    | some mark => simp [nextMark, hlong]

theorem quantize_cent {x r : FiniteDecimal} (h : Decimal.quantize .halfUp x (-2) = some r) :
    r.value = centOf x.value := by
  have hcent : (10 : ℚ) ^ (-2 : Int) = 1 / 100 := by norm_num
  rw [Decimal.quantize_value h, hcent, div_div_eq_mul_div, div_one, mul_one_div]
  rfl

/-- What is decided on a candidate. -/
theorem decideOn_cases {now : Clock} {mark desired : FiniteDecimal}
    (h : decideOn py config state long now mark desired = some d) :
    d.action ≠ .blocked ∧ (if long then d.highWatermark else d.lowWatermark) = some mark ∧
      ((d.action ≠ .update ∧ d.stopPrice = state.stopPrice) ∨
        (d.action = .update ∧ d.stopPrice = desired ∧
          if long then state.stopPrice.value < desired.value else desired.value < state.stopPrice.value)) := by
  unfold decideOn at h
  dsimp only at h
  by_cases hloose : loosens long state.stopPrice desired = true
  · rw [if_pos hloose] at h
    cases h
    exact ⟨nofun, by cases long <;> rfl, .inl ⟨nofun, rfl⟩⟩
  rw [if_neg hloose] at h
  have htight : if long then state.stopPrice.value < desired.value else desired.value < state.stopPrice.value := by
    cases long with
    | true => exact not_le.mp fun hle => hloose (FiniteDecimal.le_iff.mpr hle)
    | false => exact not_le.mp fun hle => hloose (FiniteDecimal.le_iff.mpr hle)
  obtain ⟨step, -, h⟩ := Option.bind_eq_some_iff.mp h
  by_cases hstep : step.lt config.minStep = true
  · rw [if_pos hstep] at h
    cases h
    exact ⟨nofun, by cases long <;> rfl, .inl ⟨nofun, rfl⟩⟩
  rw [if_neg hstep] at h
  obtain ⟨limited, -, h⟩ := Option.bind_eq_some_iff.mp h
  cases limited with
  | true =>
    cases h
    exact ⟨nofun, by cases long <;> rfl, .inl ⟨nofun, rfl⟩⟩
  | false =>
    cases h
    exact ⟨nofun, by cases long <;> rfl, .inr ⟨rfl, rfl, htight⟩⟩

/-- **What an evaluation does.** A blocked one leaves stop and watermarks. Any
other moves the watermark of its side, and the stop stays or is set to the cent,
which tightens it. -/
theorem evaluate_cases (h : evaluate py config (state.at call) call.tick = some d) :
    (d.action = .blocked ∧ state.folded d = state) ∨
      (d.action ≠ .blocked ∧ (call.tick.priceStale = false ∧ call.tick.dataConnected = true) ∧
        (if isLong py state.side then d.highWatermark else d.lowWatermark) =
          some (newMark py state call.tick.currentPrice) ∧
        ((d.action ≠ .update ∧ d.stopPrice = state.stopPrice) ∨
          (d.action = .update ∧ ∃ x, trailed config (isLong py state.side)
              (newMark py state call.tick.currentPrice) = some x ∧ d.stopPrice.value = centOf x.value ∧
            if isLong py state.side then state.stopPrice.value < centOf x.value
            else centOf x.value < state.stopPrice.value))) := by
  unfold evaluate at h
  split_ifs at h with hblocked
  · cases h
    exact .inl ⟨rfl, rfl⟩
  · obtain ⟨x, hx, h⟩ := Option.bind_eq_some_iff.mp h
    obtain ⟨desired, hdesired, h⟩ := Option.bind_eq_some_iff.mp h
    have hfeed : call.tick.priceStale = false ∧ call.tick.dataConnected = true := by
      simpa [not_or] using hblocked
    have hvalue := quantize_cent hdesired
    obtain ⟨haction, hmark, hstop⟩ := decideOn_cases h
    refine .inr ⟨haction, hfeed, hmark, ?_⟩
    rcases hstop with hstop | ⟨hupdate, hstop, htight⟩
    · exact .inl hstop
    · refine .inr ⟨hupdate, x, hx, by rw [hstop, hvalue], ?_⟩
      rw [← hvalue]
      exact htight

/-- The watermark after a decision. -/
theorem folded_mark (h : evaluate py config (state.at call) call.tick = some d)
    (hpos : ∀ m, state.mark py = some m → 0 < m) :
    (state.folded d).mark py = if d.action = .blocked then state.mark py
      else some (nextMark (isLong py state.side) (state.mark py) call.tick.currentPrice.value) := by
  rcases evaluate_cases h with ⟨hblocked, hsame⟩ | ⟨haction, -, hmark, -⟩
  · rw [if_pos hblocked, hsame]
  · rw [if_neg haction, ← newMark_value _ hpos]
    show (if isLong py state.side then d.highWatermark else d.lowWatermark).map FiniteDecimal.value = _
    rw [hmark]
    rfl

/-- **One decision** trails where the cent does not reach the watermark. -/
theorem stepTrails (h : evaluate py config (state.at call) call.tick = some d)
    (hpos : ∀ m, state.mark py = some m → 0 < m) (hoff : ¬ ReachesMark py config state call) :
    StepTrails py state d ((state.folded d).mark py) := by
  have hmark := folded_mark h hpos
  rcases evaluate_cases h with ⟨hblocked, hsame⟩ | ⟨haction, hfeed, -, ⟨hkept, hstop⟩ | ⟨hupdate, x, hx, hstop, htight⟩⟩
  · have hstop : d.stopPrice = state.stopPrice := congrArg AppTrailingState.stopPrice hsame
    refine ⟨?_, rfl, fun hupdate => absurd (hblocked.symm.trans hupdate) nofun⟩
    rw [hstop, ite_self]
  · refine ⟨?_, rfl, fun hupdate => absurd hupdate hkept⟩
    rw [hstop, ite_self]
  · rw [if_neg haction] at hmark
    refine ⟨?_, rfl, fun _ => ⟨_, hmark, ?_⟩⟩
    · rw [hstop]
      split_ifs with hlong
      · rw [if_pos hlong] at htight
        exact htight.le
      · rw [if_neg hlong] at htight
        exact htight.le
    · rw [← newMark_value _ hpos, hstop]
      split_ifs with hlong
      · rw [if_pos hlong] at htight
        refine not_le.mp fun hle => hoff ⟨hfeed, x, hx, ?_⟩
        rw [if_pos hlong]
        exact ⟨htight, hle⟩
      · rw [if_neg hlong] at htight
        refine not_le.mp fun hle => hoff ⟨hfeed, x, hx, ?_⟩
        rw [if_neg hlong]
        exact ⟨htight, hle⟩

theorem nextMark_pos {mark : Option ℚ} {price : ℚ} (hpos : ∀ m, mark = some m → 0 < m)
    (hprice : 0 < price) : 0 < nextMark long mark price := by
  cases mark with
  | none => exact hprice
  | some mark =>
    unfold nextMark
    cases long with
    | true => exact lt_max_of_lt_right hprice
    | false => exact lt_min (hpos mark rfl) hprice

/-- **A stop that trails.** In every run with positive prices, from a state whose
watermark is positive or missing, in which no call finds the cent behind the new
watermark tighter than the stop and not off the market: the stop only tightens,
the watermark is the extreme of the first one and of the prices of the calls that
were not blocked, and an updated stop is strictly off the watermark. -/
theorem trails (calls : List Call) (hpos : ∀ m, state.mark py = some m → 0 < m)
    (hprices : ∀ call ∈ calls, 0 < call.tick.currentPrice.value)
    (hoff : (trailingMachine py config).Meets (fun state call => ¬ ReachesMark py config state call) state calls) :
    Trails py config (state.mark py) state calls := by
  induction calls generalizing state with
  | nil => trivial
  | cons call calls ih =>
    have hprice := hprices call List.mem_cons_self
    have hrest := fun c hc => hprices c (List.mem_cons_of_mem call hc)
    obtain ⟨hfirst, hlater⟩ := hoff
    unfold Trails
    cases h : evaluate py config (state.at call) call.tick with
    | none =>
      have hnext : (trailingMachine py config).next state call = state := by
        simp only [Machine.next, trailingMachine, h]
      rw [hnext] at hlater
      exact ih hpos hrest hlater
    | some d =>
      have hnext : (trailingMachine py config).next state call = state.folded d := by
        simp only [Machine.next, trailingMachine, h]
      rw [hnext] at hlater
      dsimp only
      rw [← folded_mark h hpos]
      refine ⟨stepTrails h hpos hfirst, ih (fun m hm => ?_) hrest hlater⟩
      rw [folded_mark h hpos] at hm
      split_ifs at hm
      · exact hpos m hm
      · rw [← Option.some.inj hm]
        exact nextMark_pos hpos hprice

end

/-! ## Some prices -/

def plain : Interpreter where
  unicode := Text.Unicode.ascii
  secondsBelow micros seconds := decide (micros < seconds * 1000000)

/-- A callback of a tenth. -/
def tenth : AppTrailingConfig where
  callbackRate := ⟨false, 1, -1, .tenth⟩

theorem noon_valid : DateTime.Valid 2026 6 21 12 0 0 0 := by decide

def noon : Clock := (⟨2026, 6, 21, 12, 0, 0, 0, noon_valid⟩, some 0)

/-- A call with a price of this many thousandths. -/
def priced (coeff : Nat) (h : Decimal.InRange coeff (-3) := by decide) : Call where
  tick := { currentPrice := ⟨false, coeff, -3, h⟩, now := noon }

/-- A long whose watermark is 0.006 and whose stop is 0.001. -/
def opened : AppTrailingState where
  side := "long"
  highWatermark := some (priced 6).tick.currentPrice
  lowWatermark := none
  stopPrice := (priced 1 .thousandth).tick.currentPrice

theorem opened_long : isLong plain opened.side = true := by decide +kernel

theorem opened_mark : opened.mark plain = some (6 / 1000) := by
  rw [AppTrailingState.mark, if_pos opened_long]
  norm_num [opened, priced, FiniteDecimal.value, FiniteDecimal.signed]

/-- A price of 100, and one that is stale. -/
theorem trails_hundred :
    Trails plain tenth (some (6 / 1000)) opened
      [priced 100000, { tick := { (priced 90000).tick with priceStale := true } }] := by
  have hprices : ∀ call ∈ [priced 100000, { tick := { (priced 90000).tick with priceStale := true } }],
      0 < call.tick.currentPrice.value := by
    intro call hcall
    simp only [List.mem_cons, List.not_mem_nil, or_false] at hcall
    obtain rfl | rfl := hcall <;> norm_num [priced, FiniteDecimal.value, FiniteDecimal.signed]
  have hmark : newMark plain opened (priced 100000).tick.currentPrice = (priced 100000).tick.currentPrice := by
    decide +kernel
  have htrailed : trailed tenth true (priced 100000).tick.currentPrice =
      some ⟨false, 900000, -4, by decide⟩ := by
    decide +kernel
  have hcent : centOf 90 = 90 := by norm_num [centOf, Rounding.apply]
  rw [← opened_mark]
  refine trails _ (fun m hm => ?_) hprices ⟨?_, ?_, trivial⟩
  · rw [opened_mark] at hm
    rw [← Option.some.inj hm]
    norm_num
  · rintro ⟨-, x, hx, hreach⟩
    rw [opened_long, hmark, htrailed] at hx
    cases hx
    rw [if_pos opened_long, hmark] at hreach
    norm_num [FiniteDecimal.value, FiniteDecimal.signed, priced, hcent] at hreach
  · rintro ⟨⟨hstale, -⟩, -⟩
    cases hstale

/-- At 0.006 the stop is set to 0.01. -/
theorem stop_above_market : ¬ Trails plain tenth (opened.mark plain) opened [priced 6] := by
  have hone : (evaluate plain tenth (opened.at (priced 6)) (priced 6).tick).map
      (fun d => (d.action, d.stopPrice)) = some (.update, ⟨false, 1, -2, by decide⟩) := by
    decide +kernel
  obtain ⟨d, hd, hdecision⟩ := Option.map_eq_some_iff.mp hone
  obtain ⟨haction, hstop⟩ := Prod.mk.inj hdecision
  intro h
  rw [Trails, hd] at h
  obtain ⟨m, hm, hbelow⟩ := h.1.offMarket haction
  rw [if_pos opened_long, hstop] at hbelow
  rw [if_neg (by rw [haction]; nofun), opened_mark, opened_long] at hm
  have hmark : m = 6 / 1000 := by
    rw [← Option.some.inj hm]
    norm_num [nextMark, priced, FiniteDecimal.value, FiniteDecimal.signed]
  rw [hmark] at hbelow
  norm_num [FiniteDecimal.value, FiniteDecimal.signed] at hbelow

end TraderBot.Protection
