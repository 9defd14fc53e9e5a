import TraderBot.Orders.Calls

/-! # The history of an order

Whatever events are applied, in whatever order and however often: a row never
goes away, its status moves along the descriptor's edges and not at all from a
terminal one, and its filled quantity and its time only grow. An event the
reducer does not apply is a duplicate, a stale backfill or the subject of a
finding, unless the call raises, and then nothing happened. -/
namespace TraderBot.Orders
open TraderBot.Lib TraderBot.Lib.Text TraderBot.Lib.Json

/-! ## What a step keeps of a row -/

/-- From one stored row to the next. -/
structure Advances (old new : OrderRow) : Prop where
  status : old.status = new.status ∨ legalTransition old.status new.status = true
  terminal : old.status.isTerminal = true → new.status = old.status
  filled : old.filledQuantity.value ≤ new.filledQuantity.value
  tsEvent : ∀ a ∈ old.tsEvent, ∃ b ∈ new.tsEvent, a ≤ b

theorem Advances.refl (row : OrderRow) : Advances row row :=
  ⟨.inl rfl, fun _ => rfl, le_refl _, fun a h => ⟨a, h, le_refl a⟩⟩

/-- From one stored row to any later one. -/
structure Keeps (old new : OrderRow) : Prop where
  path : Relation.ReflTransGen (fun a b => legalTransition a b = true) old.status new.status
  terminal : old.status.isTerminal = true → new.status = old.status
  filled : old.filledQuantity.value ≤ new.filledQuantity.value
  tsEvent : ∀ a ∈ old.tsEvent, ∃ b ∈ new.tsEvent, a ≤ b

theorem Advances.keeps {old new : OrderRow} (h : Advances old new) : Keeps old new := by
  refine ⟨?_, h.terminal, h.filled, h.tsEvent⟩
  rcases h.status with h | h
  · rw [h]
  · exact .single h

theorem Keeps.trans {a b c : OrderRow} (h : Keeps a b) (h' : Keeps b c) : Keeps a c where
  path := h.path.trans h'.path
  terminal ha := by
    have hb := h.terminal ha
    rw [← hb, h'.terminal (by rw [hb]; exact ha)]
  filled := le_trans h.filled h'.filled
  tsEvent x hx := by
    obtain ⟨y, hy, hxy⟩ := h.tsEvent x hx
    obtain ⟨z, hz, hyz⟩ := h'.tsEvent y hy
    exact ⟨z, hz, le_trans hxy hyz⟩

theorem greatestTime_right {a b : Option Nat} : ∀ x ∈ b, ∃ y ∈ greatestTime a b, x ≤ y := by
  intro x hx
  cases hx
  cases a with
  | none => exact ⟨x, rfl, le_refl x⟩
  | some a => exact ⟨max a x, rfl, le_max_right a x⟩

/-- A merge under a legal status advances the row. -/
theorem advances_mergeRow {old new : OrderRow} (averageGiven : Bool)
    (h : legalTransition old.status new.status = true) :
    Advances old (mergeRow averageGiven old new) where
  status := .inr h
  terminal hs := legalTransition_terminal h hs
  filled := by
    show old.filledQuantity.value ≤ (Amount.greatest new.filledQuantity old.filledQuantity).value
    rw [Amount.greatest_value]
    exact Numeric.le_greatest_right _ _
  tsEvent := greatestTime_right

/-! ## What a step does to the tables -/

/-- Every row is still there and has advanced. -/
def AllAdvance (t t' : Tables) : Prop :=
  ∀ key old, t.orders.find? key = some old →
    ∃ new, t'.orders.find? key = some new ∧ Advances old new

theorem allAdvance_of_orders {t t' : Tables} (h : t'.orders = t.orders) : AllAdvance t t' :=
  fun _ old hold => ⟨old, by rw [h]; exact hold, Advances.refl old⟩

/-- An old event that does not advance the row it is about. -/
def IsStale (env : Env) (t : Tables) (call : Call) : Prop :=
  ∃ event r t₁ row, normalizeEvent env call.now call.event = .ok event ∧
    readPhase env call.now event t = .ok (r, t₁) ∧ t.orders.find? event.key = some row ∧
    staleBackfill event.tsEvent row r.hasFills r.target = true

/-- The step added a finding about the event. -/
def RecordsFinding (env : Env) (t t' : Tables) (call : Call) : Prop :=
  ∃ event row target f, normalizeEvent env call.now call.event = .ok event ∧
    t.orders.find? event.key = some row ∧ legalTransition row.status target = false ∧
    t'.findings = t.findings ++ [f] ∧ f.About event row target

/-- What the claim asks of one step. -/
structure LegalStep (env : Env) (t : Tables) (call : Call) : Prop where
  rows : AllAdvance t ((machine env).next t call)
  again : t.orderEvents.has call.event.eventId = true → (machine env).next t call = t
  explained : ∀ result, (machine env).answer t call = .ok result → result.applied = false →
    result.duplicate = false →
    IsStale env t call ∨ RecordsFinding env t ((machine env).next t call) call
  raised : ∀ failure, (machine env).answer t call = .error failure →
    (machine env).next t call = t

section Steps
variable {env : Env} {call : Call} {t t' : Tables} {event : Normalized} {r : Reading}
  {result : OrderApplyResult}

/-- The rows after the write phase of a call that read these tables. -/
theorem allAdvance_writePhase {now : DateTime} {t₁ : Tables}
    (hr : readPhase env now event t = .ok (r, t₁))
    (hw : writePhase env call.draws r t₁ = .ok (result, t')) : AllAdvance t t' := by
  obtain ⟨-, horders, -, -, hcurrent, -, hreduced, -⟩ := readPhase_ok hr
  obtain ⟨-, hkey, -⟩ := reducedEvent_ok hreduced
  rcases writePhase_cases hw with ⟨-, ho, -⟩ | ⟨row, -, -, ho, -⟩ | ⟨status, new, hd, hnew, ho, -⟩
  · exact allAdvance_of_orders (ho.trans horders)
  · exact allAdvance_of_orders (ho.trans horders)
  · intro key old hold
    obtain ⟨hnewKey, hstatus, -⟩ := proposedRow_ok hnew
    rw [ho, find?_upserted hnewKey, horders, hkey]
    by_cases hk : key = event.key
    · subst hk
      rw [if_pos rfl, hold]
      rw [hcurrent, hold] at hd
      have hlegal : legalTransition old.status new.status = true := by
        rw [hstatus]
        exact decision_project hd
      exact ⟨_, rfl, advances_mergeRow _ hlegal⟩
    · exact ⟨old, by rw [if_neg hk]; exact hold, Advances.refl old⟩

theorem explained_writePhase {t₁ : Tables}
    (hevent : normalizeEvent env call.now call.event = .ok event)
    (hr : readPhase env call.now event t = .ok (r, t₁))
    (hw : writePhase env call.draws r t₁ = .ok (result, t')) (happlied : result.applied = false) :
    IsStale env t call ∨ RecordsFinding env t t' call := by
  obtain ⟨-, -, -, hfindings, hcurrent, -, hreduced, -⟩ := readPhase_ok hr
  obtain ⟨hev, hkey, hts⟩ := reducedEvent_ok hreduced
  rcases writePhase_cases hw with ⟨hd, -⟩ | ⟨row, hd, hrow, -, -, -, f, hf, hf'⟩ | ⟨_, _, -, -, -, ha, -⟩
  · obtain ⟨row, hrow, hstale⟩ := decision_backfill hd
    rw [hts] at hstale
    exact .inl ⟨event, r, t₁, row, hevent, hr, hcurrent ▸ hrow, hstale⟩
  · obtain ⟨-, row', hrow', hillegal⟩ := decision_illegal hd
    have hsame : row' = row := Option.some.inj (hrow'.symm.trans hrow)
    subst hsame
    refine .inr ⟨event, row', r.target, f, hevent, hcurrent ▸ hrow, hillegal, ?_, ?_⟩
    · rw [hf, hfindings]
    · have hpayload : findingPayload r.event row'.status r.target =
          findingPayload event row'.status r.target := by
        unfold findingPayload
        rw [hev, hkey]
      unfold Finding.About at hf' ⊢
      rwa [hpayload, hkey] at hf'
  · rw [ha] at happlied
    cases happlied

theorem legalStep (env : Env) (t : Tables) (call : Call) : LegalStep env t call := by
  rcases next_eq env t call with ⟨result, hok, hanswer⟩ | ⟨failure, hanswer, hnext⟩
  · obtain ⟨event, hevent, -, hcase⟩ := applyEvent_ok hok
    have hid : event.event.eventId = call.event.eventId := by rw [normalizeEvent_event hevent]
    rw [hid] at hcase
    rcases hcase with ⟨hseen, happlied, hduplicate, hsame⟩ | ⟨hnew, r, t₁, hr, hw⟩
    · refine ⟨allAdvance_of_orders (by rw [hsame]), fun _ => hsame, ?_, ?_⟩
      · intro result' hr' _ hd
        rw [hanswer] at hr'
        cases hr'
        rw [hduplicate] at hd
        cases hd
      · intro failure hf
        rw [hanswer] at hf
        cases hf
    · refine ⟨allAdvance_writePhase hr hw, ?_, ?_, ?_⟩
      · intro hseen
        rw [hnew] at hseen
        cases hseen
      · intro result' hr' happlied _
        rw [hanswer] at hr'
        cases hr'
        exact explained_writePhase hevent hr hw happlied
      · intro failure hf
        rw [hanswer] at hf
        cases hf
  · refine ⟨allAdvance_of_orders (by rw [hnext]), fun _ => hnext, ?_, fun _ _ => hnext⟩
    intro result hr
    rw [hanswer] at hr
    cases hr

end Steps

/-! ## Runs -/

/-- Every row is still there, however many events later. -/
def AllKeep (t t' : Tables) : Prop :=
  ∀ key old, t.orders.find? key = some old → ∃ new, t'.orders.find? key = some new ∧ Keeps old new

theorem allKeep_after (env : Env) (t : Tables) (calls : List Call) :
    AllKeep t ((machine env).after t calls) := by
  refine Machine.related (I := fun _ => True) ?_ ?_ (fun _ _ _ => trivial) ?_ trivial calls
  · intro s key old hold
    exact ⟨old, hold, (Advances.refl old).keeps⟩
  · intro a b c hab hbc key old hold
    obtain ⟨mid, hmid, h1⟩ := hab key old hold
    obtain ⟨new, hnew, h2⟩ := hbc key mid hmid
    exact ⟨new, hnew, h1.trans h2⟩
  · intro s call _ key old hold
    obtain ⟨new, hnew, h⟩ := (legalStep env s call).rows key old hold
    exact ⟨new, hnew, h.keeps⟩

/-- **The history of every order is legal**: each step of every run from any
tables is, and between any two points of the run a row persists, keeps a
terminal status and loses neither filled quantity nor time. -/
theorem history_legal (env : Env) (t : Tables) (before : List Call) (call : Call)
    (later : List Call) :
    LegalStep env ((machine env).after t before) call ∧
      AllKeep ((machine env).after t before) ((machine env).after t (before ++ call :: later)) := by
  refine ⟨legalStep env _ call, ?_⟩
  rw [Machine.after_append]
  exact allKeep_after env _ (call :: later)

/-! ## A call that raises -/

/-- The event was applied, was a duplicate, was stale or left a finding. -/
def Explains (env : Env) (t : Tables) (call : Call) : Prop :=
  (∃ result, (machine env).answer t call = .ok result ∧
    (result.applied = true ∨ result.duplicate = true)) ∨
  IsStale env t call ∨ RecordsFinding env t ((machine env).next t call) call

theorem noon_valid {second : Nat} (h : second < 60) : DateTime.Valid 2026 6 21 12 0 second 0 := by
  refine ⟨?_, ?_, ?_, ?_, ?_, ?_, ?_, ?_, h, ?_⟩ <;> decide

/-- Noon of a day, and some seconds. -/
def sampleTime (second : Nat) (h : second < 60) : DateTime := ⟨2026, 6, 21, 12, 0, second, 0, noon_valid h⟩

theorem one_lt_sixty : 1 < 60 := by omega
theorem two_lt_sixty : 2 < 60 := by omega

/-- An event of one order. -/
def sampleCall (eventId eventType : String) (second : Nat) (h : second < 60)
    (tradeId : Option String) (fields : List (String × Value)) : Call where
  event := {
    eventId, accountId := "acct", clientOrderId := some "coid", tradeId, eventType,
    tsEvent := .datetime (sampleTime second h) none,
    payload := some (fields.foldl (fun d kv => d.set kv.1 kv.2) Dict.empty) }
  now := sampleTime 59 (by omega)
  draws := ⟨"row", "run", "finding"⟩

def negativeFill : Call :=
  sampleCall "e1" "OrderFilled" 1 one_lt_sixty none [("last_qty", .str "-1")]

/-- A fill with a negative quantity raises: it is neither applied nor a
duplicate nor stale, and no finding is about it. -/
theorem not_explains_negative_fill :
    (machine Env.plain).answer Tables.empty negativeFill =
        .error (.valueError fillNumberMessage) ∧
      ¬ Explains Env.plain Tables.empty negativeFill := by
  have hanswer : (machine Env.plain).answer Tables.empty negativeFill =
      .error (.valueError fillNumberMessage) := by decide +kernel
  refine ⟨hanswer, ?_⟩
  rintro (⟨result, hr, -⟩ | ⟨_, _, _, _, _, _, hrow, _⟩ | ⟨_, _, _, _, _, hrow, _⟩)
  · rw [hanswer] at hr
    cases hr
  · cases hrow
  · cases hrow

end TraderBot.Orders
