import TraderBot.LiveCanary.Store

/-! # What an assessment leaves in a record

A fill and a mark both come down to one assessment: the peak loss, the reason to
halt and what is to be closed follow from the position as it then is. -/
namespace TraderBot.LiveCanary
open TraderBot.Lib TraderBot.Lib.Text
open TraderBot.Lib.Decimal (add sub mul div fix)

theorem orRaise_ok {α : Type} {failure : Failure} {x : Option α} {a : α} (h : orRaise failure x = .ok a) :
    x = some a := by
  cases x with
  | none => cases h
  | some b =>
    cases h
    rfl

theorem signal_ok {α : Type} {x : Option α} {a : α} (h : signal x = .ok a) : x = some a := orRaise_ok h

theorem refuseIf_ok {c : Bool} {message : String} {u : Unit} (h : refuseIf c message = .ok u) : c = false := by
  cases c with
  | true => cases h
  | false => rfl

@[simp] theorem written_value (d : FiniteDecimal) : (written d).value = d.value := d.spread_value

theorem isZero_iff {d : FiniteDecimal} : isZero d = true ↔ d.value = 0 := by
  rw [isZero, decide_eq_true_iff, ← abs_eq_zero, FiniteDecimal.abs_value, mul_eq_zero, Nat.cast_eq_zero,
    or_iff_left (ten_zpow_pos d.exponent).ne']

/-! ## Rounded quantities -/

/-- A number the context has written, up to its sign. -/
def Rounded (x : FiniteDecimal) : Prop :=
  ∃ negative coeff exponent d, fix negative coeff exponent = some d ∧ |x.value| = |d.value|

theorem Rounded.zero : Rounded .zero := ⟨false, 0, 0, .zero, rfl, rfl⟩

theorem Rounded.add {a b d : FiniteDecimal} (h : Decimal.add a b = some d) : Rounded d := ⟨_, _, _, d, h, rfl⟩

theorem Rounded.congr {x y : FiniteDecimal} (h : Rounded x) (hxy : y.value = x.value) : Rounded y := by
  obtain ⟨negative, coeff, exponent, d, hd, hx⟩ := h
  exact ⟨negative, coeff, exponent, d, hd, hxy ▸ hx⟩

theorem Rounded.absolute {x d : FiniteDecimal} (h : Rounded x) (hd : absolute x = .ok d) : d.value = |x.value| := by
  obtain ⟨negative, coeff, exponent, y, hy, hx⟩ := h
  obtain ⟨r, hr, hsign, hvalue⟩ := Decimal.fix_of_fixed hy hx false
  rw [signal_ok hd] at hr
  cases hr
  rw [← hvalue, FiniteDecimal.value_of_sign, hsign]
  exact (abs_abs _).symm

/-! ## Halting -/

theorem haltReasonAfter_halted {haltReason : String} (h : haltReason ≠ "") (errors : List String)
    (peakLoss limit : FiniteDecimal) : haltReasonAfter haltReason errors peakLoss limit = haltReason := if_pos h

theorem append_ne_empty {s t : String} (h : s ≠ "") : s ++ t ≠ "" :=
  fun heq => h (String.append_eq_empty_iff.mp heq).1

/-- A loss limit that is reached is a reason to halt. -/
theorem haltReasonAfter_reached (haltReason : String) (errors : List String) {peakLoss limit : FiniteDecimal}
    (h : limit.value ≤ peakLoss.value) : haltReasonAfter haltReason errors peakLoss limit ≠ "" := by
  unfold haltReasonAfter
  split_ifs with hhalted herrors hreached
  · exact hhalted
  · exact append_ne_empty (by decide)
  · exact append_ne_empty (append_ne_empty (append_ne_empty (by decide)))
  · exact absurd (FiniteDecimal.le_iff.mpr h) hreached

/-- What a halt asks for: something is open, it is to be closed whole, from the side that
reduces it. -/
structure Pending (r : LiveCanaryExecutionRecord) (net : ℚ) : Prop where
  state : r.state = .lossLimitHalted ∨ r.state = .closeDispatched
  quantity : r.closeRequiredQuantity.value = |net|
  side : r.closeSide = if net < 0 then "BUY" else "SELL"

/-- The accounts of a record: the fills in them and what they add up to. -/
def LiveCanaryExecutionRecord.accounts (r : LiveCanaryExecutionRecord) :
    List String × FiniteDecimal × FiniteDecimal × FiniteDecimal × FiniteDecimal × FiniteDecimal :=
  (r.processedFillIds, r.netQuantity, r.averageEntryPriceUsdt, r.feesUsdt, r.realizedPnlUsdt,
    r.adverseSlippageUsdt)

section
variable {unicode : Unicode} {r halted : LiveCanaryExecutionRecord} {reason : String} {net : FiniteDecimal}
  {closes : Bool}

theorem haltRecord_keeps (h : haltRecord unicode r reason net closes = .ok halted) :
    halted.identity = r.identity ∧ halted.accounts = r.accounts := by
  unfold haltRecord at h
  by_cases hreason : reason = ""
  · rw [if_pos hreason] at h
    cases h
    exact ⟨rfl, rfl⟩
  · rw [if_neg hreason] at h
    obtain ⟨intent, -, h⟩ := bind_ok h
    obtain ⟨required, -, h⟩ := bind_ok h
    cases pure_ok h
    exact ⟨rfl, rfl⟩

theorem haltRecord_cases (h : haltRecord unicode r reason net closes = .ok halted) :
    halted.haltReason = reason ∧ (reason = "" ∧ halted.state = .exchangeConfirmed ∨
      reason ≠ "" ∧ ∃ required, absolute net = .ok required ∧ halted.closeRequiredQuantity = written required ∧
        halted.closeSide = sideToClose net ∧
        halted.state = if closes && isZero net then .closed
          else if r.state = .closeDispatched then .closeDispatched else .lossLimitHalted) := by
  unfold haltRecord at h
  by_cases hreason : reason = ""
  · rw [if_pos hreason] at h
    cases h
    exact ⟨rfl, .inl ⟨hreason, rfl⟩⟩
  · rw [if_neg hreason] at h
    obtain ⟨intent, -, h⟩ := bind_ok h
    obtain ⟨required, hrequired, h⟩ := bind_ok h
    cases pure_ok h
    exact ⟨rfl, .inr ⟨hreason, required, hrequired, rfl, rfl, rfl⟩⟩

theorem haltRecord_past (h : haltRecord unicode r reason net closes = .ok halted) :
    pastDispatch halted.state = true := by
  obtain ⟨-, ⟨-, hstate⟩ | ⟨-, required, -, -, -, hstate⟩⟩ := haltRecord_cases h
  · rw [hstate]
    rfl
  · rw [hstate]
    split_ifs <;> rfl

theorem haltRecord_pending (h : haltRecord unicode r reason net closes = .ok halted) (hreason : reason ≠ "")
    (hnet : Rounded net) (hopen : net.value ≠ 0) : Pending halted net.value := by
  have hzero : isZero net = false := by
    rw [Bool.eq_false_iff]
    exact fun hz => hopen (isZero_iff.mp hz)
  obtain ⟨-, ⟨hnone, -⟩ | ⟨-, required, hrequired, hquantity, hside, hstate⟩⟩ := haltRecord_cases h
  · exact absurd hnone hreason
  refine ⟨?_, ?_, ?_⟩
  · rw [hstate, hzero, Bool.and_false, if_neg Bool.false_ne_true]
    split_ifs
    · exact .inr rfl
    · exact .inl rfl
  · rw [hquantity, written_value, hnet.absolute hrequired]
  · rw [hside]
    exact if_congr FiniteDecimal.isNegative_iff rfl rfl

end

/-! ## Assessments -/

/-- What a fill or a mark, after which `net` is open, leaves in a record. -/
structure Assessed (unicode : Unicode) (r r' : LiveCanaryExecutionRecord) (net : FiniteDecimal) : Prop where
  kept : r'.identity = r.identity
  opened : r'.netQuantity.value = net.value
  assessed : ∃ loss errors limit halted closes,
    storedDecimal unicode r.maxCumulativeLossUsdt = .ok limit ∧
    haltRecord unicode r (haltReasonAfter r.haltReason errors (r.peakLossUsdt.max loss) limit) net closes =
      .ok halted ∧
    r'.peakLossUsdt.value = max r.peakLossUsdt.value loss.value ∧
    r'.haltReason = halted.haltReason ∧ r'.state = halted.state ∧
    r'.closeRequiredQuantity = halted.closeRequiredQuantity ∧ r'.closeSide = halted.closeSide

section
variable {unicode : Unicode} {r r' : LiveCanaryExecutionRecord} {net : FiniteDecimal}

theorem Assessed.peak (h : Assessed unicode r r' net) : r.peakLossUsdt.value ≤ r'.peakLossUsdt.value := by
  obtain ⟨loss, errors, limit, halted, closes, -, -, hpeak, -⟩ := h.assessed
  rw [hpeak]
  exact le_max_left _ _

theorem Assessed.halt (h : Assessed unicode r r' net) (hhalted : r.haltReason ≠ "") :
    r'.haltReason = r.haltReason := by
  obtain ⟨loss, errors, limit, halted, closes, -, hhalt, -, hreason, -⟩ := h.assessed
  rw [hreason, (haltRecord_cases hhalt).1, haltReasonAfter_halted hhalted]

theorem Assessed.past (h : Assessed unicode r r' net) : pastDispatch r'.state = true := by
  obtain ⟨loss, errors, limit, halted, closes, -, hhalt, -, -, hstate, -⟩ := h.assessed
  rw [hstate]
  exact haltRecord_past hhalt

theorem Assessed.reached (h : Assessed unicode r r' net) {limit : FiniteDecimal}
    (hlimit : storedDecimal unicode r'.maxCumulativeLossUsdt = .ok limit)
    (hreached : limit.value ≤ r'.peakLossUsdt.value) : r'.haltReason ≠ "" := by
  obtain ⟨loss, errors, limit', halted, closes, hlimit', hhalt, hpeak, hreason, -⟩ := h.assessed
  have hsame : r'.maxCumulativeLossUsdt = r.maxCumulativeLossUsdt := by
    show r'.identity.maxCumulativeLossUsdt = _
    rw [h.kept]
  rw [hsame, hlimit'] at hlimit
  cases hlimit
  rw [hreason, (haltRecord_cases hhalt).1]
  refine haltReasonAfter_reached _ _ ?_
  rw [FiniteDecimal.max_value, ← hpeak]
  exact hreached

theorem Assessed.pending (h : Assessed unicode r r' net) (hnet : Rounded net) (hhalted : r'.haltReason ≠ "")
    (hopen : r'.netQuantity.value ≠ 0) : Pending r' r'.netQuantity.value := by
  obtain ⟨loss, errors, limit, halted, closes, -, hhalt, -, hreason, hstate, hquantity, hside⟩ := h.assessed
  rw [hreason, (haltRecord_cases hhalt).1] at hhalted
  rw [h.opened] at hopen ⊢
  obtain ⟨hstate', hquantity', hside'⟩ := haltRecord_pending hhalt hhalted hnet hopen
  exact ⟨hstate ▸ hstate', hquantity ▸ hquantity', hside ▸ hside'⟩

end

/-! ## Fills and marks -/

section
variable {unicode : Unicode} {book book' : Book} {fill : NormalFill} {signedFill : FiniteDecimal}

theorem Book.reduce_net (h : book.reduce fill signedFill = .ok book') :
    book'.netQuantity = book.netQuantity ∨ Rounded book'.netQuantity := by
  unfold Book.reduce at h
  by_cases hzero : isZero book.netQuantity = true
  · rw [if_pos hzero] at h
    cases h
    exact .inl rfl
  rw [if_neg hzero] at h
  obtain ⟨product, -, h⟩ := bind_ok h
  by_cases hside : (!product.isNegative) = true
  · rw [if_pos hside] at h
    cases pure_ok h
    exact .inl rfl
  rw [if_neg hside] at h
  obtain ⟨held, -, h⟩ := bind_ok h
  by_cases hexceeds : held.lt fill.quantity = true
  · rw [if_pos hexceeds] at h
    cases pure_ok h
    exact .inl rfl
  rw [if_neg hexceeds] at h
  obtain ⟨gain, -, h⟩ := bind_ok h
  obtain ⟨earned, -, h⟩ := bind_ok h
  obtain ⟨realizedPnl, -, h⟩ := bind_ok h
  obtain ⟨netQuantity, hnet, h⟩ := bind_ok h
  cases pure_ok h
  exact .inr (Rounded.add (signal_ok hnet))

variable {authorizedLimitPriceUsdt : String}

theorem Book.enter_net (h : book.enter unicode fill signedFill authorizedLimitPriceUsdt = .ok book') :
    book'.netQuantity = book.netQuantity ∨ Rounded book'.netQuantity := by
  unfold Book.enter at h
  obtain ⟨reverses, -, h⟩ := bind_ok h
  by_cases hreverses : reverses = true
  · rw [if_pos hreverses] at h
    cases pure_ok h
    exact .inl rfl
  rw [if_neg hreverses] at h
  obtain ⟨previous, -, h⟩ := bind_ok h
  obtain ⟨total, -, h⟩ := bind_ok h
  obtain ⟨before, -, h⟩ := bind_ok h
  obtain ⟨added, -, h⟩ := bind_ok h
  obtain ⟨weighted, -, h⟩ := bind_ok h
  obtain ⟨averageEntryPrice, -, h⟩ := bind_ok h
  obtain ⟨netQuantity, hnet, h⟩ := bind_ok h
  obtain ⟨slippage, -, h⟩ := bind_ok h
  cases pure_ok h
  exact .inr (Rounded.add (signal_ok hnet))

theorem Book.afterFill_net
    (h : book.afterFill unicode fill signedFill authorizedLimitPriceUsdt = .ok book') :
    book'.netQuantity = book.netQuantity ∨ Rounded book'.netQuantity := by
  unfold Book.afterFill at h
  split_ifs at h
  · exact Book.reduce_net h
  · exact Book.enter_net h

end

section
variable {unicode : Unicode} {r r' : LiveCanaryExecutionRecord} {now : String}

/-- A fill is accounted under its id, and the position is assessed. -/
theorem recordWithFill_assessed {fill : NormalFill} (h : recordWithFill unicode r fill now = .ok r') :
    r'.processedFillIds = r.processedFillIds ++ [fill.fillId] ∧
      ∃ net, (net = r.netQuantity ∨ Rounded net) ∧ Assessed unicode r r' net := by
  unfold recordWithFill at h
  obtain ⟨fees, -, h⟩ := bind_ok h
  obtain ⟨signedFill, -, h⟩ := bind_ok h
  obtain ⟨book, hbook, h⟩ := bind_ok h
  obtain ⟨unrealized, -, h⟩ := bind_ok h
  obtain ⟨loss, -, h⟩ := bind_ok h
  obtain ⟨limit, hlimit, h⟩ := bind_ok h
  obtain ⟨halted, hhalted, h⟩ := bind_ok h
  cases pure_ok h
  have hnet := Book.afterFill_net hbook
  have hmarked : ∀ error, (if fill.mark.isPositive then book else book.refuse error).netQuantity =
      book.netQuantity := by
    intro error
    split_ifs <;> rfl
  have hkept := (haltRecord_keeps hhalted).1
  refine ⟨rfl, _, ?_, hkept, written_value _, loss, _, limit, halted, true, hlimit, hhalted, ?_, rfl, rfl, rfl,
    rfl⟩
  · rw [hmarked]
    exact hnet
  · exact (written_value _).trans (FiniteDecimal.max_value _ _)

theorem recordWithMark_assessed {mark : NormalMark} (h : recordWithMark unicode r mark now = .ok r') :
    r'.accounts = r.accounts ∧ Assessed unicode r r' r.netQuantity := by
  unfold recordWithMark at h
  obtain ⟨unrealized, -, h⟩ := bind_ok h
  obtain ⟨loss, -, h⟩ := bind_ok h
  obtain ⟨limit, hlimit, h⟩ := bind_ok h
  obtain ⟨halted, hhalted, h⟩ := bind_ok h
  cases pure_ok h
  obtain ⟨hkept, haccounts⟩ := haltRecord_keeps hhalted
  have hopened : halted.netQuantity = r.netQuantity := congrArg (fun accounts => accounts.2.1) haccounts
  refine ⟨haccounts, hkept, congrArg FiniteDecimal.value hopened, loss, _, limit, halted, false, hlimit, hhalted,
    ?_, rfl, rfl, rfl, rfl⟩
  exact (written_value _).trans (FiniteDecimal.max_value _ _)

end

end TraderBot.LiveCanary
