import TraderBot.EventMapper.Model
import TraderBot.Lib.Returns
import TraderBot.Spool.Recovery

/-! # Event identity

An envelope's id is the hash of the account, the event type, three ids and the
raw time. Two events get one id exactly when these agree (`eventId_eq_iff`). The
instrument and the position are not among them: two position events without an
order, at one time or with none, get one id, and the spool takes the second for
a duplicate of the first. -/
namespace TraderBot.EventMapper
open TraderBot.Lib TraderBot.Lib.Dict TraderBot.Lib.Json
open TraderBot.Spool (ExecutionEventEnvelopeV1 Failure)

section Mapping
variable (py : Interpreter)

/-- What the id is made from. -/
structure SameMaterial (e₁ e₂ : SourceEvent) : Prop where
  eventType : (identity py e₁).eventType = (identity py e₂).eventType
  clientOrderId : (identity py e₁).clientOrderId = (identity py e₂).clientOrderId
  venueOrderId : (identity py e₁).venueOrderId = (identity py e₂).venueOrderId
  tradeId : (identity py e₁).tradeId = (identity py e₂).tradeId
  tsEvent : stableTimestampPart py (tsEventRaw e₁) = stableTimestampPart py (tsEventRaw e₂)

variable {py} {config : ProjectionConfig} {tsIngest : DateTime} {event : SourceEvent}

/-- The id of a mapped event. -/
theorem toEnvelope_eventId {v : ExecutionEventEnvelopeV1}
    (h : toEnvelope py config tsIngest event = .ok (some v)) :
    ∃ t, stableTimestampPart py (tsEventRaw event) = .ok t ∧
      v.eventId = py.sha256 (render (material config.accountId (identity py event).eventType
        (identity py event).clientOrderId (identity py event).venueOrderId
        (identity py event).tradeId t)) := by
  unfold toEnvelope at h
  simp only at h
  split at h
  · cases h
  · obtain ⟨tsEvent, -, h⟩ := bind_ok h
    generalize (if tsEvent.toMicros < missingBefore.toMicros then tsIngest else tsEvent) = stamped at h
    split_ifs at h with hscope
    · cases h
    · obtain ⟨tags, -, h⟩ := bind_ok h
      obtain ⟨payload, -, h⟩ := bind_ok h
      obtain ⟨eventId, hid, h⟩ := bind_ok h
      obtain ⟨t, ht, hid⟩ := bind_ok hid
      split_ifs at h with hne
      have hv : v.eventId = eventId := by
        have := Option.some.inj (Except.ok.inj h)
        rw [← this]
      exact ⟨t, ht, hv.trans (Except.ok.inj hid).symm⟩

theorem optionalStr_ne (value : Option PyValue) : optionalStr py value ≠ some "" := by
  cases value with
  | none => exact nofun
  | some value =>
    simp only [optionalStr]
    split_ifs with h
    · exact nofun
    · simpa using h

/-- `or ""` loses nothing where no text is empty. -/
theorem getD_injective {x y : Option String} (hx : x ≠ some "") (hy : y ≠ some "")
    (h : x.getD "" = y.getD "") : x = y := by
  cases x with
  | none =>
    cases y with
    | none => rfl
    | some y => exact absurd (congrArg some h.symm) hy
  | some x =>
    cases y with
    | none => exact absurd (congrArg some h) hx
    | some y => exact congrArg some h

theorem canonical_material (accountId eventType : String)
    (clientOrderId venueOrderId tradeId : Option String) (tsEvent : String) :
    canonical (material accountId eventType clientOrderId venueOrderId tradeId tsEvent) = true := by
  have hkeys : sortedKeys [("account_id", Value.str accountId),
      ("client_order_id", .str (clientOrderId.getD "")), ("event_type", .str eventType),
      ("trade_id", .str (tradeId.getD "")), ("ts_event", .str tsEvent),
      ("venue_order_id", .str (venueOrderId.getD ""))] = true := by
    simp only [sortedKeys, List.map_cons, List.map_nil]
    decide
  rw [material, canonical, hkeys]
  rfl

theorem render_injective {v w : Value} (hv : canonical v = true) (hw : canonical w = true)
    (h : render v = render w) : v = w :=
  Option.some.inj ((loads_render hv).symm.trans ((congrArg loads h).trans (loads_render hw)))

variable {ts₁ ts₂ : DateTime} {e₁ e₂ : SourceEvent} {v₁ v₂ : ExecutionEventEnvelopeV1}

/-- **Two mapped events get one id exactly when what the id is made from
agrees.** -/
theorem eventId_eq_iff (hsha : Function.Injective py.sha256)
    (h₁ : toEnvelope py config ts₁ e₁ = .ok (some v₁))
    (h₂ : toEnvelope py config ts₂ e₂ = .ok (some v₂)) :
    v₁.eventId = v₂.eventId ↔ SameMaterial py e₁ e₂ := by
  obtain ⟨t₁, ht₁, hid₁⟩ := toEnvelope_eventId h₁
  obtain ⟨t₂, ht₂, hid₂⟩ := toEnvelope_eventId h₂
  rw [hid₁, hid₂]
  constructor
  · intro h
    have hmaterial := render_injective (canonical_material _ _ _ _ _ _) (canonical_material _ _ _ _ _ _)
      (hsha h)
    simp only [material, Value.obj.injEq, List.cons.injEq, Prod.mk.injEq, Value.str.injEq, true_and,
      and_true] at hmaterial
    obtain ⟨hclient, htype, htrade, hts, hvenue⟩ := hmaterial
    exact ⟨htype, getD_injective (optionalStr_ne _) (optionalStr_ne _) hclient,
      getD_injective (optionalStr_ne _) (optionalStr_ne _) hvenue,
      getD_injective (optionalStr_ne _) (optionalStr_ne _) htrade, by rw [ht₁, ht₂, hts]⟩
  · intro h
    have ht : t₁ = t₂ := Except.ok.inj (ht₁.symm.trans (h.tsEvent.trans ht₂))
    rw [h.eventType, h.clientOrderId, h.venueOrderId, h.tradeId, ht]

/-- **When different events get different ids.** Of two mapped events that
differ in type, order ids, trade id, instrument or position, the ids differ
exactly when the two do not agree in all the id is made from, or agree in
instrument and position as well. -/
theorem separates_iff (py : Interpreter) (config : ProjectionConfig) (ts₁ ts₂ : DateTime)
    (e₁ e₂ : SourceEvent) (v₁ v₂ : ExecutionEventEnvelopeV1) (hsha : Function.Injective py.sha256)
    (h₁ : toEnvelope py config ts₁ e₁ = .ok (some v₁))
    (h₂ : toEnvelope py config ts₂ e₂ = .ok (some v₂)) :
    (identity py e₁ ≠ identity py e₂ → v₁.eventId ≠ v₂.eventId) ↔
      (SameMaterial py e₁ e₂ → (identity py e₁).instrumentId = (identity py e₂).instrumentId ∧
        (identity py e₁).positionId = (identity py e₂).positionId) := by
  have hids := eventId_eq_iff hsha h₁ h₂
  constructor
  · intro hsep hsame
    have hidentity : identity py e₁ = identity py e₂ := by
      by_contra hne
      exact hsep hne (hids.mpr hsame)
    rw [hidentity]
    exact ⟨rfl, rfl⟩
  · intro hcond hne heq
    have hsame := hids.mp heq
    obtain ⟨hinstrument, hposition⟩ := hcond hsame
    exact hne (Identity.ext hsame.eventType hsame.clientOrderId hsame.venueOrderId hsame.tradeId
      hinstrument hposition)

end Mapping

/-! ## Position events without a time -/

def changedText : List Char := render (material "account-1" "PositionChanged" none none none "")

def openedText : List Char := render (material "account-1" "PositionOpened" none none none "")

def changedDigest : String := "a11d443b82b806b326ed3454c63ea7f7b8fd35a4497d694ce4af5163931c3217"

def openedDigest : String := "1029062988e629c8b381e8065075dd9bc393e13fb9d5f04370fa6d04172233e2"

/-- SHA-256 on two texts; elsewhere a function that keeps texts apart. -/
def sampleDigest (cs : List Char) : String :=
  if cs = changedText then changedDigest
  else if cs = openedText then openedDigest
  else String.ofList ('#' :: cs)

def undoDigest (s : String) : List Char :=
  if s = changedDigest then changedText
  else if s = openedDigest then openedText
  else s.toList.tail

theorem sampleDigest_injective : Function.Injective sampleDigest := by
  have hmark : ∀ (s : String) (cs : List Char), s.toList.head? ≠ some '#' →
      String.ofList ('#' :: cs) ≠ s := by
    intro s cs hs h
    exact hs (by rw [← h]; simp)
  refine Function.LeftInverse.injective (g := undoDigest) ?_
  intro cs
  unfold sampleDigest
  split_ifs with hchanged hopened
  · rw [undoDigest, if_pos rfl, hchanged]
  · rw [undoDigest, if_neg (by decide), if_pos rfl, hopened]
  · rw [undoDigest, if_neg (hmark _ _ (by decide)), if_neg (hmark _ _ (by decide))]
    simp

def unixEpoch : DateTime := ⟨1970, 1, 1, 0, 0, 0, 0, by decide⟩

def sampleInterpreter : Interpreter where
  unicode := .ascii
  str
    | .str s => s
    | .int n => String.ofList (renderInt n)
    | _ => ""
  str_str _ := rfl
  int
    | .int n => some n
    | _ => none
  fromtimestamp value scale :=
    if 0 ≤ value then DateTime.ofMicros (unixEpoch.toMicros + value.toNat * 1000000 / scale)
    else none
  sha256 := sampleDigest
  sha256_ne cs := by
    unfold sampleDigest
    split_ifs
    · decide
    · decide
    · intro h
      simpa using congrArg String.toList h

def sampleConfig : ProjectionConfig := { nodeId := "node-1", accountId := "account-1" }

def positionEvent (className instrumentId positionId : String) : SourceEvent :=
  .object className [("instrument_id", .str instrumentId), ("position_id", .str positionId)]

def changedBtc : SourceEvent := positionEvent "PositionChanged" "BTCUSDT-PERP.BINANCE" "P-BTC"

def changedEth : SourceEvent := positionEvent "PositionChanged" "ETHUSDT-PERP.BINANCE" "P-ETH"

def openedBtc : SourceEvent := positionEvent "PositionOpened" "BTCUSDT-PERP.BINANCE" "P-BTC"

/-- The envelope a sample event is mapped to. -/
def sampleEnvelope (event : SourceEvent) : Option ExecutionEventEnvelopeV1 :=
  match toEnvelope sampleInterpreter sampleConfig Spool.sampleTime event with
  | .ok v => v
  | .error _ => none

theorem toEnvelope_sample {event : SourceEvent} {v : ExecutionEventEnvelopeV1}
    (h : sampleEnvelope event = some v) :
    toEnvelope sampleInterpreter sampleConfig Spool.sampleTime event = .ok (some v) := by
  unfold sampleEnvelope at h
  split at h
  · next heq => rw [heq, h]
  · cases h

theorem sampleEnvelopes_isSome : (sampleEnvelope changedBtc).isSome = true ∧
    (sampleEnvelope changedEth).isSome = true ∧ (sampleEnvelope openedBtc).isSome = true := by
  decide +kernel

/-- A position that opens and then changes gives two ids. -/
theorem separates_opened_changed :
    ∃ v₁ v₂, toEnvelope sampleInterpreter sampleConfig Spool.sampleTime openedBtc = .ok (some v₁) ∧
      toEnvelope sampleInterpreter sampleConfig Spool.sampleTime changedBtc = .ok (some v₂) ∧
      Function.Injective sampleInterpreter.sha256 ∧
      ((identity sampleInterpreter openedBtc ≠ identity sampleInterpreter changedBtc →
          v₁.eventId ≠ v₂.eventId) ↔
        (SameMaterial sampleInterpreter openedBtc changedBtc →
          (identity sampleInterpreter openedBtc).instrumentId =
              (identity sampleInterpreter changedBtc).instrumentId ∧
            (identity sampleInterpreter openedBtc).positionId =
              (identity sampleInterpreter changedBtc).positionId)) := by
  obtain ⟨hchanged, -, hopened⟩ := sampleEnvelopes_isSome
  obtain ⟨v₁, hv₁⟩ := Option.isSome_iff_exists.mp hopened
  obtain ⟨v₂, hv₂⟩ := Option.isSome_iff_exists.mp hchanged
  exact ⟨v₁, v₂, toEnvelope_sample hv₁, toEnvelope_sample hv₂, sampleDigest_injective,
    separates_iff sampleInterpreter sampleConfig Spool.sampleTime Spool.sampleTime openedBtc changedBtc
      v₁ v₂ sampleDigest_injective (toEnvelope_sample hv₁) (toEnvelope_sample hv₂)⟩

/-- Changes of two positions on two instruments, without a time, get one id; the
spool answers that it has seen the second. -/
theorem not_separates_two_positions :
    Function.Injective sampleInterpreter.sha256 ∧
      identity sampleInterpreter changedBtc ≠ identity sampleInterpreter changedEth ∧
      ∃ v₁ v₂, toEnvelope sampleInterpreter sampleConfig Spool.sampleTime changedBtc = .ok (some v₁) ∧
        toEnvelope sampleInterpreter sampleConfig Spool.sampleTime changedEth = .ok (some v₂) ∧
        v₁.eventId = v₂.eventId ∧
        ∀ spool, Spool.recordSize v₁ ≤ spool.maxBytes →
          (Spool.machine spool).answer ((Spool.machine spool).after Spool.fresh [.appendOnce v₁])
            (.appendOnce v₂) = .appended false := by
  obtain ⟨hbtc, heth, -⟩ := sampleEnvelopes_isSome
  obtain ⟨v₁, hv₁⟩ := Option.isSome_iff_exists.mp hbtc
  obtain ⟨v₂, hv₂⟩ := Option.isSome_iff_exists.mp heth
  have hsame : SameMaterial sampleInterpreter changedBtc changedEth :=
    ⟨rfl, rfl, rfl, rfl, rfl⟩
  have hids := (eventId_eq_iff sampleDigest_injective (toEnvelope_sample hv₁)
    (toEnvelope_sample hv₂)).mpr hsame
  refine ⟨sampleDigest_injective, ?_, v₁, v₂, toEnvelope_sample hv₁, toEnvelope_sample hv₂, hids, ?_⟩
  · intro h
    exact absurd (congrArg Identity.instrumentId h) (by decide)
  · intro spool hroom
    exact Spool.append_duplicate hroom hids

end TraderBot.EventMapper
