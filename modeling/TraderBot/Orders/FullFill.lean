import TraderBot.Orders.History

/-! # Full fills

An order whose reduced fills reach its quantity is filled, and stays so, exactly
when each event that finds it so also finds a row it may fill and reads the
quantity. The descriptor has no edge to `filled` from `planned`,
`pending_submit`, `submitted` and `pending_cancel`, and a quantity that is there
but is no number hides the one the row knows: such an order stays where it is
with all of its quantity filled. -/
namespace TraderBot.Orders
open TraderBot.Lib TraderBot.Lib.Text TraderBot.Lib.Json

/-! ## Reaching the quantity -/

/-- The order's quantity: the event's own, else the row's. -/
def knownQuantity (env : Env) (payload : Dict Value) (current : Option OrderRow) : Option Decimal :=
  match decimal env.unicode (quantityField payload) with
  | some q => some q
  | none => (current.bind OrderRow.quantity).map fun q => q.value.toDecimal

/-- The filled quantity `_fill_payload` reduces the recorded fills to. -/
def reducedTotal (env : Env) (key : OrderKey) (t : Tables) (current : Option OrderRow) :
    Except Failure FiniteDecimal := do
  let s ← reduceFills env.unicode (fillRows env t.executionEvents.rows key)
  fillTotal s.total current

/-- A new event that returned, for an order that no other event ended. -/
structure Returns (env : Env) (key : OrderKey) (t : Tables) (call : Call) (event : Normalized)
    (r : Reading) (t₁ : Tables) : Prop where
  normalized : normalizeEvent env call.now call.event = .ok event
  key : event.key = key
  fresh : t.orderEvents.has event.event.eventId = false
  read : readPhase env call.now event t = .ok (r, t₁)
  wrote : ∃ result, (machine env).answer t call = .ok result
  fills : r.hasFills = true
  notEnded : ∀ row ∈ r.current, row.status.isTerminal = true → row.status = .filled

/-- An event after which the reduced fills cover the known quantity. -/
def FullyFills (env : Env) (key : OrderKey) (t : Tables) (call : Call) : Prop :=
  ∃ event r t₁, Returns env key t call event r t₁ ∧ ∃ q total,
    knownQuantity env event.payload r.current = some q ∧
    reducedTotal env key t₁ r.current = .ok total ∧ q.le? (.finite total) = some true

/-- The event leaves the quantity to the row, brings one that is a number, or
says that nothing is left. -/
def ReadsQuantity (env : Env) (payload : Dict Value) : Prop :=
  (Json.present (payload.get? "quantity") = none ∧ Json.present (payload.get? "qty") = none) ∨
  (decimal env.unicode (quantityField payload)).isSome = true ∨
  ∃ leaves, decimal env.unicode (payload.get? "leaves_qty") = some leaves ∧
    leaves.le? (.finite .zero) = some true

/-- A row that such an event can turn to filled: it already is, or it may move
there and the event shows it. -/
def CanSurface (env : Env) (event : Normalized) (r : Reading) (row : OrderRow) : Prop :=
  row.status = .filled ∨ (legalTransition row.status .filled = true ∧
    (ReadsQuantity env event.payload ∨ namedTarget env r.event (some row.status) = .ok .filled))

/-- The condition on a step: an event that covers the quantity finds no row, or
one it can turn to filled. -/
def Surfaceable (env : Env) (key : OrderKey) (t : Tables) (call : Call) : Prop :=
  ∀ event r t₁, Returns env key t call event r t₁ → ∀ q total,
    knownQuantity env event.payload r.current = some q →
    reducedTotal env key t₁ r.current = .ok total → q.le? (.finite total) = some true →
    ∀ row ∈ r.current, CanSurface env event r row

def IsFilled (key : OrderKey) (t : Tables) : Prop :=
  ∃ row, t.orders.find? key = some row ∧ row.status = .filled

/-- Full fills surface along a run: after the event that covers the quantity and
after every later one the order is filled. -/
def Surfaces (env : Env) (key : OrderKey) (t : Tables) (calls : List Call) : Prop :=
  ∀ before call later, calls = before ++ call :: later →
    FullyFills env key ((machine env).after t before) call →
    ∀ mid, mid <+: later → IsFilled key ((machine env).after t (before ++ call :: mid))

/-! ## What the reduced payload says -/

section Payload
variable {env : Env} {key : OrderKey} {t t₁ : Tables} {call : Call} {event : Normalized} {r : Reading}
  {payload : Dict Value} {current : Option OrderRow} {total : FiniteDecimal}

variable {average : Value} {k : String} {q : Decimal}

/-- What `_fill_payload` puts in does not change the other fields. -/
theorem get?_reduced (h1 : k ≠ "filled_qty") (h2 : k ≠ "avg_px") :
    ((payload.set "filled_qty" (finiteStr total)).set "avg_px" average).get? k = payload.get? k := by
  rw [Dict.get?_set_ne h2, Dict.get?_set_ne h1]

theorem withQuantity_get? (h : k ≠ "quantity") :
    (withQuantity payload current).get? k = payload.get? k := by
  unfold withQuantity
  split
  · rfl
  · split
    · exact Dict.get?_set_ne h
    · rfl

theorem orElse_none_of_present {a b : Option Value} (ha : Json.present a = none) :
    Json.orElse a b = b := by
  cases a with
  | none => rfl
  | some v =>
    cases v with
    | null => rfl
    | _ => cases ha

theorem present_eq_none {a : Option Value} (h : Json.present a = none) : a = none ∨ a = some .null := by
  cases a with
  | none => exact .inl rfl
  | some v =>
    cases v with
    | null => exact .inr rfl
    | _ => cases h

theorem decimalText_truthy (d : Decimal) : (Value.str (withQuantity.decimalText d)).truthy = true := by
  have hne : withQuantity.decimalText d ≠ "" := by
    cases d with
    | finite d =>
      intro h
      have hnil : Decimal.finiteText d = [] := by
        have := congrArg String.toList h
        rwa [withQuantity.decimalText, String.toList_ofList] at this
      have hread := Decimal.ofText_text Unicode.ascii d
      rw [hnil] at hread
      cases hread
    | infinity negative => cases negative <;> decide
    | nan negative signaling payload =>
      show "NaN" ≠ ""
      decide
  simp [Value.truthy, hne]

/-- A text read from the row is the number the row holds. -/
theorem decimal_decimalText (unicode : Unicode) (n : Numeric) :
    decimal unicode (some (.str (withQuantity.decimalText n.toDecimal))) = some n.toDecimal := by
  cases n with
  | nan =>
    have hplain : ∀ c ∈ "NaN".toList, Decimal.isPlain c = true := by
      rw [← List.all_eq_true]
      decide
    have hword : Decimal.asciiText unicode "NaN".toList = some "NaN".toList :=
      Decimal.asciiText_plain hplain
    unfold decimal
    rw [Option.bind_some, Decimal.ofValue, Numeric.toDecimal, withQuantity.decimalText,
      Decimal.ofText, hword]
    decide
  | number unscaled scale h => exact decimal_finiteStr unicode _

/-- The quantity the reduced payload shows is the known one, unless the event's
own is there and is no number. -/
theorem quantity_reduced (hq : knownQuantity env payload current = some q)
    (hreads : (Json.present (payload.get? "quantity") = none ∧
        Json.present (payload.get? "qty") = none) ∨
      (decimal env.unicode (quantityField payload)).isSome = true) :
    decimal env.unicode (quantityField (((withQuantity payload current).set "filled_qty"
      (finiteStr total)).set "avg_px" average)) = some q := by
  have hfield : ∀ p : Dict Value, quantityField ((p.set "filled_qty" (finiteStr total)).set "avg_px"
      average) = quantityField p := by
    intro p
    unfold quantityField
    rw [get?_reduced (by decide) (by decide), get?_reduced (by decide) (by decide)]
  rw [hfield]
  unfold knownQuantity at hq
  cases hown : decimal env.unicode (quantityField payload) with
  | some own =>
    rw [hown] at hq
    cases hq
    -- a number of its own is not overwritten
    have hsame : withQuantity payload current = payload := by
      unfold withQuantity
      split
      · rfl
      · split
        · rename_i h1 h2 _
          have hfalsy : decimal env.unicode (quantityField payload) = none := by
            unfold quantityField
            rw [orElse_none_of_present h1]
            rcases present_eq_none h2 with h | h
            · rw [h]; rfl
            · rw [h]; rfl
          rw [hfalsy] at hown
          cases hown
        · rfl
    rw [hsame, hown]
  | none =>
    rw [hown] at hq hreads
    obtain ⟨h1, h2⟩ := hreads.resolve_right (by decide)
    cases current with
    | none => cases hq
    | some row =>
      cases hrow : row.quantity with
      | none => simp [hrow] at hq
      | some amount =>
        simp only [Option.bind_some, hrow, Option.map_some, Option.some.injEq] at hq
        have hset : withQuantity payload (some row) = payload.set "quantity"
            (.str (withQuantity.decimalText amount.value.toDecimal)) := by
          simp only [withQuantity, h1, h2, hrow]
        rw [hset]
        unfold quantityField
        rw [Dict.get?_set_self, Json.orElse, if_pos (decimalText_truthy _), decimal_decimalText, hq]

/-- With a quantity there that is no number, the reduced payload shows none. -/
theorem quantity_hidden (current : Option OrderRow) (total : FiniteDecimal) (average : Value)
    (hpresent : ¬ (Json.present (payload.get? "quantity") = none ∧
      Json.present (payload.get? "qty") = none))
    (hown : decimal env.unicode (quantityField payload) = none) :
    decimal env.unicode (quantityField (((withQuantity payload current).set "filled_qty"
      (finiteStr total)).set "avg_px" average)) = none := by
  have hsame : withQuantity payload current = payload := by
    unfold withQuantity
    split
    · rfl
    · split
      · rename_i h1 h2 _
        exact absurd ⟨h1, h2⟩ hpresent
      · rfl
  unfold quantityField at hown ⊢
  rw [get?_reduced (by decide) (by decide), get?_reduced (by decide) (by decide), hsame, hown]

theorem nothingLeft_ok {leaves : Option Decimal} {b : Bool} (h : nothingLeft leaves = .ok b) :
    b = true ↔ ∃ l, leaves = some l ∧ l.le? (.finite .zero) = some true := by
  cases leaves with
  | none =>
    cases h
    simp
  | some l =>
    cases hle : l.le? (.finite .zero) with
    | none => simp [nothingLeft, hle, orRaise] at h
    | some b' =>
      simp only [nothingLeft, hle, orRaise, Except.ok.injEq] at h
      simp [hle, h]

theorem covers_ok {quantity filled : Option Decimal} {b : Bool} (h : covers quantity filled = .ok b) :
    b = true ↔ ∃ q f, quantity = some q ∧ filled = some f ∧ q.le? f = some true := by
  cases quantity with
  | none =>
    cases h
    simp
  | some q =>
    cases filled with
    | none =>
      cases h
      simp
    | some f =>
      cases hle : q.le? f with
      | none => simp [covers, hle, orRaise] at h
      | some b' =>
        simp only [covers, hle, orRaise, Except.ok.injEq] at h
        simp [hle, h]

/-- The derivation, as the reducer's note states it. -/
theorem derive_eq {p : Dict Value} {status : OrderStatus}
    (h : deriveOrderFillState env.unicode p = .ok status) :
    status = .filled ↔
      (∃ leaves, decimal env.unicode (p.get? "leaves_qty") = some leaves ∧
        leaves.le? (.finite .zero) = some true) ∨
      ∃ q filled, decimal env.unicode (quantityField p) = some q ∧
        decimal env.unicode (p.get? "filled_qty") = some filled ∧ q.le? filled = some true := by
  unfold deriveOrderFillState at h
  obtain ⟨done, hdone, h⟩ := bind_ok h
  rw [← nothingLeft_ok hdone]
  cases done with
  | true =>
    rw [if_pos rfl] at h
    cases pure_ok h
    exact ⟨fun _ => .inl rfl, fun _ => rfl⟩
  | false =>
    rw [if_neg Bool.false_ne_true] at h
    obtain ⟨full, hfull, h⟩ := bind_ok h
    rw [← covers_ok hfull]
    cases full with
    | true =>
      rw [if_pos rfl] at h
      cases pure_ok h
      exact ⟨fun _ => .inr rfl, fun _ => rfl⟩
    | false =>
      rw [if_neg Bool.false_ne_true] at h
      cases pure_ok h
      simp

/-- An event with fills reads the recorded ones into its payload. -/
theorem reduced_payload (h : Returns env key t call event r t₁) :
    ∃ s total average, reduceFills env.unicode (fillRows env t₁.executionEvents.rows key) = .ok s ∧
      fillTotal s.total r.current = .ok total ∧
      r.event.payload = ((withQuantity event.payload r.current).set "filled_qty"
        (finiteStr total)).set "avg_px" average := by
  obtain ⟨-, -, -, -, -, hfills, hreduced, -⟩ := readPhase_ok h.read
  unfold reducedEvent at hreduced
  rw [← hfills, if_pos h.fills] at hreduced
  obtain ⟨payload, hp, hreduced⟩ := bind_ok hreduced
  unfold fillPayload at hp
  obtain ⟨s, hs, hp⟩ := bind_ok hp
  obtain ⟨total, htotal, hp⟩ := bind_ok hp
  obtain ⟨average, -, hp⟩ := bind_ok hp
  rw [h.key] at hs
  refine ⟨s, total, average, hs, htotal, ?_⟩
  rw [← pure_ok hreduced, ← pure_ok hp]

/-- For an order whose quantity is covered, the reduced payload derives `filled`
exactly when the event reads the quantity. -/
theorem derive_filled_iff (h : Returns env key t call event r t₁)
    (hq : knownQuantity env event.payload r.current = some q)
    (htotal : reducedTotal env key t₁ r.current = .ok total)
    (hcover : q.le? (.finite total) = some true) {derived : OrderStatus}
    (hderived : deriveOrderFillState env.unicode r.event.payload = .ok derived) :
    derived = .filled ↔ ReadsQuantity env event.payload := by
  obtain ⟨s, total', average, hs, htotal', hpayload⟩ := reduced_payload h
  have hsame : total' = total := by
    unfold reducedTotal at htotal
    rw [hs] at htotal
    exact Except.ok.inj (htotal'.symm.trans htotal)
  subst hsame
  have hfilled : decimal env.unicode (r.event.payload.get? "filled_qty") = some (.finite total') := by
    rw [hpayload, Dict.get?_set_ne (by decide), Dict.get?_set_self, decimal_finiteStr]
  have hleaves : r.event.payload.get? "leaves_qty" = event.payload.get? "leaves_qty" := by
    rw [hpayload, get?_reduced (by decide) (by decide), withQuantity_get? (by decide)]
  rw [derive_eq hderived, hfilled, hleaves]
  constructor
  · rintro (hl | ⟨q', f, hq', -, -⟩)
    · exact .inr (.inr hl)
    · by_contra hno
      simp only [ReadsQuantity, not_or] at hno
      have hown : decimal env.unicode (quantityField event.payload) = none := by
        simpa using hno.2.1
      have hhidden := quantity_hidden r.current total' average hno.1 hown
      rw [hpayload, hhidden] at hq'
      cases hq'
  · rintro (habsent | hown | hl)
    · refine .inr ⟨q, .finite total', ?_, rfl, hcover⟩
      rw [hpayload]
      exact quantity_reduced hq (.inl habsent)
    · refine .inr ⟨q, .finite total', ?_, rfl, hcover⟩
      rw [hpayload]
      exact quantity_reduced hq (.inr hown)
    · exact .inl hl

end Payload

/-! ## One step -/

section Step
variable {env : Env} {key : OrderKey} {t t₁ : Tables} {call : Call} {event : Normalized} {r : Reading}

theorem chooseTarget_ok {current : Option OrderStatus} {target : OrderStatus}
    (h : chooseTarget env event current true = .ok target) :
    ∃ named derived, namedTarget env event current = .ok named ∧
      deriveOrderFillState env.unicode event.payload = .ok derived ∧
      (target = .filled ↔ named = .filled ∨
        (derived = .filled ∧ ∀ s ∈ current, legalTransition s .filled = true)) := by
  unfold chooseTarget at h
  obtain ⟨named, hnamed, h⟩ := bind_ok h
  rw [if_pos rfl] at h
  obtain ⟨target', htarget', h⟩ := bind_ok h
  have hmap : Dict.lookup "OrderFilled" eventStateMap = some .derive := by decide
  unfold eventTarget at htarget'
  rw [hmap] at htarget'
  obtain ⟨derived, hderived, htarget'⟩ := bind_ok htarget'
  cases pure_ok htarget'
  refine ⟨named, derived, hnamed, hderived, ?_⟩
  have hinj : some (Target.state derived) = some (.state .filled) ↔ derived = .filled := by simp
  split_ifs at h with hc
  · cases pure_ok h
    rw [hinj] at hc
    exact ⟨fun _ => .inr hc, fun _ => rfl⟩
  · cases pure_ok h
    rw [hinj] at hc
    exact ⟨.inl, fun h => h.resolve_right hc⟩

/-- With fills the row is always written, as filled exactly when it is or may be. -/
theorem decision_fills (tsEvent : Nat) (row : OrderRow) (target : OrderStatus) :
    ∃ status, decision tsEvent (some row) true target = .project status ∧
      (status = .filled ↔ row.status = .filled ∨
        (target = .filled ∧ legalTransition row.status .filled = true)) := by
  unfold decision
  dsimp only
  by_cases htarget : target = row.status
  · rw [if_pos htarget]
    refine ⟨target, rfl, ?_⟩
    constructor
    · intro h
      exact .inl (htarget ▸ h)
    · rintro (h | ⟨h, -⟩)
      · rw [htarget, h]
      · exact h
  · rw [if_neg htarget]
    by_cases hstale : staleBackfill tsEvent row true target = true
    · rw [if_pos hstale, if_pos rfl]
      have hne : target ≠ .filled := by
        rintro rfl
        simp [staleBackfill] at hstale
      exact ⟨row.status, rfl, fun h => .inl h, fun h => h.resolve_right fun h => hne h.1⟩
    · rw [if_neg hstale]
      by_cases hlegal : legalTransition row.status target = true
      · rw [if_pos hlegal]
        refine ⟨target, rfl, fun h => .inr ⟨h, h ▸ hlegal⟩, ?_⟩
        rintro (h | ⟨h, -⟩)
        · exact absurd (legalTransition_terminal hlegal (by rw [h]; rfl)) htarget
        · exact h
      · rw [if_neg hlegal, if_pos rfl]
        refine ⟨row.status, rfl, fun h => .inl h, ?_⟩
        rintro (h | ⟨rfl, h⟩)
        · exact h
        · exact absurd h hlegal

/-- The status of the row after a call with fills. -/
theorem isFilled_next (h : Returns env key t call event r t₁) {status : OrderStatus}
    (hd : decision r.event.tsEvent r.current r.hasFills r.target = .project status) :
    IsFilled key ((machine env).next t call) ↔ status = .filled := by
  obtain ⟨result, hresult⟩ := h.wrote
  rcases next_eq env t call with ⟨result', hok, -⟩ | ⟨failure, hanswer, -⟩
  · obtain ⟨event', hevent', -, hcase⟩ := applyEvent_ok hok
    cases Except.ok.inj (h.normalized.symm.trans hevent')
    rcases hcase with ⟨hseen, -⟩ | ⟨-, r', t₁', hr', hw⟩
    · rw [h.fresh] at hseen
      cases hseen
    · cases Except.ok.inj (h.read.symm.trans hr')
      obtain ⟨-, horders, -, -, -, -, hreduced, -⟩ := readPhase_ok h.read
      obtain ⟨-, hkey, -⟩ := reducedEvent_ok hreduced
      rcases writePhase_cases hw with ⟨hb, -⟩ | ⟨row, hi, -⟩ | ⟨status', new, hp, hnew, ho, -⟩
      · rw [hd] at hb
        cases hb
      · rw [hd] at hi
        cases hi
      · rw [hd] at hp
        cases hp
        obtain ⟨hnewKey, hstatus, -⟩ := proposedRow_ok hnew
        have hafter : ((machine env).next t call).orders.find? key =
            some (upsertedRow (t₁.orders.find? r.event.key)
              (r.event.payload.get? "avg_px").isSome new) := by
          rw [ho, find?_upserted hnewKey, if_pos (by rw [hkey, h.key])]
        have hrow : ∀ existing averageGiven,
            (upsertedRow existing averageGiven new).status = new.status := by
          intro existing averageGiven
          cases existing <;> rfl
        unfold IsFilled
        rw [hafter, ← hstatus]
        simp [hrow]
  · rw [hresult] at hanswer
    cases hanswer

/-- **An event that covers the quantity surfaces exactly when it can.** -/
theorem isFilled_iff_canSurface (h : Returns env key t call event r t₁) {q : Decimal}
    {total : FiniteDecimal} (hq : knownQuantity env event.payload r.current = some q)
    (htotal : reducedTotal env key t₁ r.current = .ok total)
    (hcover : q.le? (.finite total) = some true) :
    IsFilled key ((machine env).next t call) ↔ ∀ row ∈ r.current, CanSurface env event r row := by
  obtain ⟨-, -, -, -, -, -, -, hchoose⟩ := readPhase_ok h.read
  rw [h.fills] at hchoose
  obtain ⟨named, derived, hnamed, hderived, htarget⟩ := chooseTarget_ok hchoose
  rw [derive_filled_iff h hq htotal hcover hderived] at htarget
  cases hcurrent : r.current with
  | none =>
    have hd : decision r.event.tsEvent r.current r.hasFills r.target = .project r.target := by
      rw [hcurrent]
      rfl
    have hown : (decimal env.unicode (quantityField event.payload)).isSome = true := by
      rw [hcurrent, knownQuantity] at hq
      cases hd' : decimal env.unicode (quantityField event.payload) with
      | none => simp [hd'] at hq
      | some q' => rfl
    rw [isFilled_next h hd, htarget, hcurrent]
    simp [ReadsQuantity, hown]
  | some row =>
    obtain ⟨status, hd, hstatus⟩ := decision_fills r.event.tsEvent row r.target
    have hd' : decision r.event.tsEvent r.current r.hasFills r.target = .project status := by
      rw [hcurrent, h.fills]
      exact hd
    rw [isFilled_next h hd', hstatus, htarget, hcurrent]
    rw [hcurrent, Option.map_some] at hnamed
    simp only [Option.map_some, Option.mem_def, Option.some.injEq, forall_eq', CanSurface, hnamed,
      Except.ok.injEq]
    tauto

theorem surfaceable_iff :
    Surfaceable env key t call ↔
      (FullyFills env key t call → IsFilled key ((machine env).next t call)) := by
  constructor
  · rintro hs ⟨event, r, t₁, hreturns, q, total, hq, htotal, hcover⟩
    exact (isFilled_iff_canSurface hreturns hq htotal hcover).mpr
      (hs event r t₁ hreturns q total hq htotal hcover)
  · intro hf event r t₁ hreturns q total hq htotal hcover
    exact (isFilled_iff_canSurface hreturns hq htotal hcover).mp
      (hf ⟨event, r, t₁, hreturns, q, total, hq, htotal, hcover⟩)

theorem isFilled_after (h : IsFilled key t) (calls : List Call) :
    IsFilled key ((machine env).after t calls) := by
  obtain ⟨row, hrow, hstatus⟩ := h
  obtain ⟨new, hnew, hkeeps⟩ := allKeep_after env t calls key row hrow
  exact ⟨new, hnew, by rw [hkeeps.terminal (by rw [hstatus]; rfl), hstatus]⟩

end Step

/-! ## Runs -/

/-- **Full fills surface along a run exactly when each of its events can surface
them**: an event that covers the order's quantity finds no row, a filled one, or
one with an edge to `filled`, and reads the quantity. -/
theorem surfaces_iff (env : Env) (key : OrderKey) (t : Tables) (calls : List Call) :
    Surfaces env key t calls ↔ (machine env).Meets (Surfaceable env key) t calls := by
  constructor
  · intro h
    induction calls generalizing t with
    | nil => trivial
    | cons call calls ih =>
      refine ⟨surfaceable_iff.mpr fun hfull => ?_, ih _ ?_⟩
      · exact h [] call calls rfl hfull [] (List.nil_prefix)
      · intro before call' later hcalls hfull mid hmid
        exact h (call :: before) call' later (by rw [hcalls]; rfl) hfull mid hmid
  · intro h before call later hcalls hfull mid hmid
    rw [hcalls, Machine.meets_append] at h
    obtain ⟨-, hstep, -⟩ := h
    rw [Machine.after_append, Machine.after_cons]
    exact isFilled_after (surfaceable_iff.mp hstep hfull) mid

/-! ## Orders that stay open -/

/-- `FullyFills`, computed. -/
def fullyFills? (env : Env) (key : OrderKey) (t : Tables) (call : Call) : Bool :=
  match normalizeEvent env call.now call.event with
  | .error _ => false
  | .ok event =>
    match readPhase env call.now event t, (machine env).answer t call with
    | .ok (r, t₁), .ok _ =>
      event.key == key && !t.orderEvents.has event.event.eventId && r.hasFills &&
        r.current.all (fun row => !row.status.isTerminal || row.status == .filled) &&
        match knownQuantity env event.payload r.current, reducedTotal env key t₁ r.current with
        | some q, .ok total => q.le? (.finite total) == some true
        | _, _ => false
    | _, _ => false

variable {key : OrderKey} {t : Tables} {call : Call}

theorem fullyFills_of_check {env : Env} (h : fullyFills? env key t call = true) :
    FullyFills env key t call := by
  unfold fullyFills? at h
  split at h
  · cases h
  · rename_i event hevent
    split at h
    · rename_i r t₁ result hread hanswer
      simp only [Bool.and_eq_true, beq_iff_eq, Bool.not_eq_true'] at h
      obtain ⟨⟨⟨⟨hkey, hfresh⟩, hfills⟩, hended⟩, hcover⟩ := h
      split at hcover
      · rename_i q total hq htotal
        refine ⟨event, r, t₁, ⟨hevent, hkey, hfresh, hread, ⟨result, hanswer⟩, hfills, ?_⟩, q, total, hq,
          htotal, by simpa using hcover⟩
        intro row hrow hterminal
        rw [Option.mem_def.mp hrow] at hended
        simpa [hterminal] using hended
      · cases hcover
    · cases h

def sampleKey : OrderKey := ⟨"acct", "coid"⟩

def acceptOne : Call :=
  sampleCall "e1" "OrderAccepted" 1 one_lt_sixty none [("quantity", .str "1")]

def pendingCancelOne : Call := sampleCall "e2" "OrderPendingCancel" 2 two_lt_sixty none []

def fillOne : Call :=
  sampleCall "e3" "OrderFilled" 3 (by omega) (some "t1") [("last_qty", .str "1")]

def fillOneBlank : Call :=
  sampleCall "e3" "OrderFilled" 3 (by omega) (some "t1")
    [("last_qty", .str "1"), ("quantity", .str "")]

/-- The last event of a run covers the quantity and does not fill the order. -/
theorem not_surfaces_of_check {env : Env} (before : List Call) (status : OrderStatus)
    (hfull : fullyFills? env key ((machine env).after t before) call = true)
    (hstatus : (((machine env).after t (before ++ [call])).orders.find? key).map OrderRow.status =
      some status) (hne : status ≠ .filled) : ¬ Surfaces env key t (before ++ [call]) := by
  intro h
  obtain ⟨row, hrow, hfilled⟩ := h before call [] rfl (fullyFills_of_check hfull) [] (List.nil_prefix)
  rw [hrow, Option.map_some, hfilled] at hstatus
  exact hne (Option.some.inj hstatus).symm

/-- A full fill that meets a pending cancel leaves the order there, and so does
one whose own quantity is blank leave it open. -/
theorem not_surfaces_pending_cancel :
    ¬ Surfaces Env.plain sampleKey Tables.empty [acceptOne, pendingCancelOne, fillOne] ∧
      ¬ Surfaces Env.plain sampleKey Tables.empty [acceptOne, fillOneBlank] := by
  constructor
  · exact not_surfaces_of_check [acceptOne, pendingCancelOne] .pendingCancel (by decide +kernel)
      (by decide +kernel) (by decide)
  · exact not_surfaces_of_check [acceptOne] .partiallyFilled (by decide +kernel)
      (by decide +kernel) (by decide)

end TraderBot.Orders
