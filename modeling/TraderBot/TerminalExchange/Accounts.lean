import TraderBot.TerminalExchange.Model

/-! # What a terminal command accounts for

An operator's command is to answer for every order it touched: one outcome for each
order a cancel was attempted on and for each order that was preserved, and one
malformed order is not to keep the others from being cancelled. The worker's lists of
outcomes are local, so a deadline that strikes between or within the cancels takes with
it the outcomes of all that were sent, and a request that cannot be built leaves the
loop before the first cancel. The command answers for its orders exactly if nothing is
owed at all, or every order is well formed and no deadline strikes before the last
cancel is through (`command_accounts_iff`). -/
namespace TraderBot.TerminalExchange
open TraderBot.Lib TraderBot.Lib.Text

section
variable {unicode : Unicode} (worker : Worker unicode) (counters : WorkerCounters)
  (request : TerminalExchangeRequest unicode) (orders : List ExchangeOrderRef)

/-! ## The property -/

/-- The request is that of the order. -/
def Asks (order : ExchangeOrderRef) (cancelRequest : CancelOrderRequest unicode) : Prop :=
  cancelRequestFromExchangeOrder unicode order = .ok cancelRequest

/-- The robot's orders in scope that a command preserves. -/
def preservedOrders : List ExchangeOrderRef :=
  orders.filter fun order => OfScope request order ∧ (preservationOutcome request order).isSome = true

/-- The robot's orders in scope that a command is to cancel. -/
def cancellableOrders : List ExchangeOrderRef :=
  orders.filter fun order => OfScope request order ∧ (preservationOutcome request order).isSome = false

/-- The listing without its malformed orders. -/
def wellFormedOrders (unicode : Unicode) (orders : List ExchangeOrderRef) : List ExchangeOrderRef :=
  orders.filter fun order => ¬ Malformed unicode order

/-- The worker with a mirror that answers with a listing. -/
def Worker.listing (worker : Worker unicode) (orders : List ExchangeOrderRef) : Worker unicode :=
  { worker with mirror := some fun _ => .orders orders }

/-- A run that attempted the cancel of these orders answers for them, and for what it preserved. -/
structure AnswersFor (run : Run unicode) (cancelled : List ExchangeOrderRef) : Prop where
  attempted : List.Forall₂ Asks cancelled run.attempts
  listed : cancelled.Sublist orders
  ofScope : ∀ order ∈ cancelled, OfScope request order
  unprotected : request.purpose = "cancel_all" →
    ∀ order ∈ cancelled, terminalOrderIsProtection unicode order = false
  outcomes : ∃ owed, owed.Perm (cancelled ++ preservedOrders request orders) ∧
    List.Forall₂ (fun order outcome => Asks order outcome.request) owed run.result.cancelOutcomes

/-- A command answers for every order it touched, and malformed orders do not keep it from
the cancels it attempts without them. -/
structure CommandAccounts : Prop where
  answers : ∃ cancelled, AnswersFor request orders (execute worker counters request) cancelled
  undeterred : (execute worker counters request).attempts =
    (execute (worker.listing (wellFormedOrders unicode orders)) counters request).attempts

/-! ## When it holds -/

/-- The work started in time and the mirror gave its listing. -/
def Refreshed : Prop :=
  worker.clock 1 < request.deadlineMonotonic ∧
    ∃ p, refresh worker request.deadlineMonotonic { reads := 2, attempts := [] } = .ok orders p

/-- No order is preserved, and there is none to cancel or no time for the first. -/
def NothingOwed : Prop :=
  preservedOrders request orders = [] ∧
    ((∀ order ∈ cancellableOrders request orders, Malformed unicode order) ∨
      request.deadlineMonotonic ≤ worker.clock 3)

/-- From a reading and an attempt on, no deadline strikes before the last of the requests is through. -/
def Timely (deadline : ℚ) (reads attempts : Nat) (requests : List (CancelOrderRequest unicode)) : Prop :=
  ∀ i cancelRequest, requests[i]? = some cancelRequest →
    worker.clock (reads + i) < deadline ∧
      ∀ text, cancelAnswer worker (attempts + i) cancelRequest ≠ .deadlineError text

/-- Every order of the robot in scope is well formed, and no deadline strikes before the
last cancel is through. The first three readings of the clock come before the cancels. -/
structure Undisturbed : Prop where
  formed : ∀ order ∈ orders, OfScope request order → ¬ Malformed unicode order
  timely : ∀ requests, List.Forall₂ Asks (cancellableOrders request orders) requests →
    Timely worker request.deadlineMonotonic 3 0 requests

/-! ## Requests -/

variable {order : ExchangeOrderRef}

theorem asks_of_not_malformed (h : ¬ Malformed unicode order) :
    ∃ cancelRequest : CancelOrderRequest unicode, Asks order cancelRequest := by
  have hnone : (cancelFields order).refusal unicode = none := not_not.mp h
  refine ⟨{ toCancelFields := cancelFields order, accepted := hnone }, ?_⟩
  unfold Asks cancelRequestFromExchangeOrder
  split
  · rfl
  · rename_i heq
    rw [hnone] at heq
    cases heq

theorem request_of_malformed (h : Malformed unicode order) :
    ∃ message, cancelRequestFromExchangeOrder unicode order = .error message := by
  unfold cancelRequestFromExchangeOrder
  split
  · rename_i heq
    exact absurd heq h
  · exact ⟨_, rfl⟩

/-! ## The loop over the listing -/

theorem sortOrders_error (h : ∃ order ∈ orders, OfScope request order ∧ Malformed unicode order) :
    ∃ message, sortOrders request orders = .error message := by
  induction orders with
  | nil =>
    obtain ⟨order, hmem, -⟩ := h
    cases hmem
  | cons order orders ih =>
    rw [sortOrders]
    by_cases hscope : OfScope request order
    · rw [if_pos hscope]
      by_cases hmalformed : Malformed unicode order
      · obtain ⟨message, hmessage⟩ := request_of_malformed hmalformed
        rw [hmessage]
        exact ⟨message, rfl⟩
      · obtain ⟨cancelRequest, hrequest⟩ := asks_of_not_malformed hmalformed
        obtain ⟨message, hmessage⟩ := ih (by
          obtain ⟨x, hx, hbad⟩ := h
          rcases List.mem_cons.mp hx with rfl | hx
          · exact absurd hbad.2 hmalformed
          · exact ⟨x, hx, hbad⟩)
        rw [hrequest, hmessage]
        cases preservationOutcome request order with
        | some outcome => exact ⟨message, rfl⟩
        | none => exact ⟨message, rfl⟩
    · rw [if_neg hscope]
      refine ih ?_
      obtain ⟨x, hx, hbad⟩ := h
      rcases List.mem_cons.mp hx with rfl | hx
      · exact absurd hbad.1 hscope
      · exact ⟨x, hx, hbad⟩

section Cons
variable {request} {order : ExchangeOrderRef} {orders}

theorem orders_cons_preserved (hscope : OfScope request order) {outcome : String}
    (h : preservationOutcome request order = some outcome) :
    preservedOrders request (order :: orders) = order :: preservedOrders request orders ∧
      cancellableOrders request (order :: orders) = cancellableOrders request orders := by
  simp [preservedOrders, cancellableOrders, hscope, h]

theorem orders_cons_cancellable (hscope : OfScope request order)
    (h : preservationOutcome request order = none) :
    preservedOrders request (order :: orders) = preservedOrders request orders ∧
      cancellableOrders request (order :: orders) = order :: cancellableOrders request orders := by
  simp [preservedOrders, cancellableOrders, hscope, h]

theorem orders_cons_outside (hscope : ¬ OfScope request order) :
    preservedOrders request (order :: orders) = preservedOrders request orders ∧
      cancellableOrders request (order :: orders) = cancellableOrders request orders := by
  simp [preservedOrders, cancellableOrders, hscope]
end Cons

/-- A listing without a malformed order is sorted into what is preserved and what is cancelled. -/
theorem sortOrders_ok (h : ∀ order ∈ orders, OfScope request order → ¬ Malformed unicode order) :
    ∃ kept requests, sortOrders request orders = .ok (kept, requests) ∧
      List.Forall₂ (fun order outcome => Asks order outcome.request) (preservedOrders request orders) kept ∧
      List.Forall₂ Asks (cancellableOrders request orders) requests := by
  induction orders with
  | nil => exact ⟨[], [], rfl, .nil, .nil⟩
  | cons order orders ih =>
    obtain ⟨kept, requests, hsort, hkept, hrequests⟩ :=
      ih fun x hx => h x (List.mem_cons_of_mem _ hx)
    rw [sortOrders]
    by_cases hscope : OfScope request order
    · obtain ⟨cancelRequest, hrequest⟩ := asks_of_not_malformed (h order List.mem_cons_self hscope)
      rw [if_pos hscope, hrequest, hsort]
      cases houtcome : preservationOutcome request order with
      | some outcome =>
        obtain ⟨hpreserved, hcancellable⟩ := orders_cons_preserved hscope houtcome 
        rw [hpreserved, hcancellable]
        exact ⟨_, requests, rfl, .cons hrequest hkept, hrequests⟩
      | none =>
        obtain ⟨hpreserved, hcancellable⟩ := orders_cons_cancellable hscope houtcome 
        rw [hpreserved, hcancellable]
        exact ⟨kept, _, rfl, hkept, .cons hrequest hrequests⟩
    · obtain ⟨hpreserved, hcancellable⟩ := orders_cons_outside hscope 
      rw [if_neg hscope, hpreserved, hcancellable]
      exact ⟨kept, requests, hsort, hkept, hrequests⟩
end

/-! ## The cancels -/

section
variable {unicode : Unicode} {worker : Worker unicode} {deadline : ℚ} {p : Progress unicode}

/-- The progress a piece of work leaves. -/
def ending {α : Type} : EStateM.Result Raised (Progress unicode) α → Progress unicode
  | .ok _ p => p
  | .error _ p => p

theorem checkDeadline_of_lt (h : worker.clock p.reads < deadline) :
    checkDeadline worker deadline p = .ok () { p with reads := p.reads + 1 } := by
  simp only [checkDeadline, bind, EStateM.bind, monotonic, if_pos h]
  rfl

theorem checkDeadline_of_le (h : deadline ≤ worker.clock p.reads) :
    ∃ text, checkDeadline worker deadline p = .error (.deadline text) { p with reads := p.reads + 1 } := by
  simp only [checkDeadline, bind, EStateM.bind, monotonic, if_neg (not_lt.mpr h)]
  exact ⟨_, rfl⟩

theorem refresh_ok {orders : List ExchangeOrderRef} {q : Progress unicode}
    (h : refresh worker deadline p = .ok orders q) : q = { p with reads := p.reads + 1 } := by
  rcases lt_or_ge (worker.clock p.reads) deadline with hlt | hle
  · simp only [refresh, bind, EStateM.bind, checkDeadline_of_lt hlt] at h
    cases hanswer : mirrorAnswer worker with
    | orders listing =>
      rw [hanswer] at h
      cases h
      rfl
    | deadlineError text =>
      rw [hanswer] at h
      cases h
    | unexpectedKeyword repr =>
      rw [hanswer] at h
      cases h
    | otherError repr =>
      rw [hanswer] at h
      cases h
  · obtain ⟨text, htext⟩ := checkDeadline_of_le hle
    simp only [refresh, bind, EStateM.bind, htext] at h
    cases h

/-- A cancel's answer ends in an outcome of its request, unless it is a deadline error. -/
theorem cancelOutcome_cases (cancelRequest : CancelOrderRequest unicode) (answer : CancelAnswer) :
    (∃ text, answer = .deadlineError text ∧
      cancelOutcome cancelRequest answer p = .error (.deadline text) p) ∨
    (∀ text, answer ≠ .deadlineError text) ∧
      ∃ outcome, cancelOutcome cancelRequest answer p = .ok outcome p ∧
        outcome.request = cancelRequest := by
  cases answer with
  | deadlineError text => exact .inl ⟨text, rfl, rfl⟩
  | result status outcome =>
    refine .inr ⟨nofun, ?_⟩
    simp only [cancelOutcome]
    split
    · exact ⟨_, rfl, rfl⟩
    · exact ⟨_, rfl, rfl⟩
  | confirmationUnknown repr => exact .inr ⟨nofun, _, rfl, rfl⟩
  | unexpectedKeyword repr => exact .inr ⟨nofun, _, rfl, rfl⟩
  | otherError repr => exact .inr ⟨nofun, _, rfl, rfl⟩

section Cons
variable (cancelRequest : CancelOrderRequest unicode) (requests : List (CancelOrderRequest unicode))

theorem cancelBatch_late (h : deadline ≤ worker.clock p.reads) :
    ∃ text, cancelBatch worker deadline (cancelRequest :: requests) p =
      .error (.deadline text) { p with reads := p.reads + 1 } := by
  obtain ⟨text, htext⟩ := checkDeadline_of_le h
  simp only [cancelBatch, bind, EStateM.bind, htext]
  exact ⟨text, rfl⟩

/-- One cancel in time: it is attempted, and its deadline error or its outcome decides. -/
theorem cancelBatch_attempt (h : worker.clock p.reads < deadline) :
    let next : Progress unicode := ⟨p.reads + 1, p.attempts ++ [cancelRequest]⟩
    let answer := cancelAnswer worker p.attempts.length cancelRequest
    (∃ text, answer = .deadlineError text ∧
      cancelBatch worker deadline (cancelRequest :: requests) p = .error (.deadline text) next) ∨
    (∀ text, answer ≠ .deadlineError text) ∧ ∃ outcome : TerminalExchangeCancelOutcome unicode,
      outcome.request = cancelRequest ∧
        cancelBatch worker deadline (cancelRequest :: requests) p =
          match cancelBatch worker deadline requests next with
          | .ok outcomes q => .ok (outcome :: outcomes) q
          | .error e q => .error e q := by
  intro next answer
  rcases cancelOutcome_cases cancelRequest answer (p := next) with ⟨text, hanswer, hout⟩ |
      ⟨hanswer, outcome, hout, hrequest⟩
  · refine .inl ⟨text, hanswer, ?_⟩
    simp only [cancelBatch, bind, EStateM.bind, checkDeadline_of_lt h, cancel]
    rw [show cancelOutcome cancelRequest (cancelAnswer worker p.attempts.length cancelRequest)
      ⟨p.reads + 1, p.attempts ++ [cancelRequest]⟩ = .error (.deadline text) next from hout]
  · refine .inr ⟨hanswer, outcome, hrequest, ?_⟩
    simp only [cancelBatch, bind, EStateM.bind, checkDeadline_of_lt h, cancel]
    rw [show cancelOutcome cancelRequest (cancelAnswer worker p.attempts.length cancelRequest)
      ⟨p.reads + 1, p.attempts ++ [cancelRequest]⟩ = .ok outcome next from hout]
    dsimp only
    cases cancelBatch worker deadline requests next with
    | ok outcomes q => rfl
    | error e q => rfl
end Cons

theorem timely_cons {reads attempts : Nat} {cancelRequest : CancelOrderRequest unicode}
    {requests : List (CancelOrderRequest unicode)} :
    Timely worker deadline reads attempts (cancelRequest :: requests) ↔
      (worker.clock reads < deadline ∧
        ∀ text, cancelAnswer worker attempts cancelRequest ≠ .deadlineError text) ∧
      Timely worker deadline (reads + 1) (attempts + 1) requests := by
  constructor
  · intro h
    refine ⟨h 0 cancelRequest rfl, fun i r hr => ?_⟩
    have := h (i + 1) r hr
    rwa [show reads + 1 + i = reads + (i + 1) by omega, show attempts + 1 + i = attempts + (i + 1) by omega]
  · intro ⟨hfirst, hrest⟩ i r hr
    cases i with
    | zero =>
      cases hr
      exact hfirst
    | succ i =>
      have := hrest i r hr
      rwa [show reads + 1 + i = reads + (i + 1) by omega, show attempts + 1 + i = attempts + (i + 1) by omega]
        at this

variable (requests : List (CancelOrderRequest unicode))

/-- Cancels no deadline strikes are all attempted, and each has its outcome. -/
theorem cancelBatch_timely (h : Timely worker deadline p.reads p.attempts.length requests) :
    ∃ outcomes q, cancelBatch worker deadline requests p = .ok outcomes q ∧
      q.attempts = p.attempts ++ requests ∧ outcomes.map (·.request) = requests := by
  induction requests generalizing p with
  | nil => exact ⟨[], p, rfl, (List.append_nil _).symm, rfl⟩
  | cons cancelRequest requests ih =>
    obtain ⟨⟨hclock, hanswer⟩, hrest⟩ := timely_cons.mp h
    rcases cancelBatch_attempt cancelRequest requests hclock with ⟨text, htext, -⟩ |
        ⟨-, outcome, hrequest, hbatch⟩
    · exact absurd htext (hanswer text)
    · obtain ⟨outcomes, q, hok, hattempts, hmap⟩ :=
        ih (p := ⟨p.reads + 1, p.attempts ++ [cancelRequest]⟩) (by simpa using hrest)
      rw [hok] at hbatch
      refine ⟨outcome :: outcomes, q, hbatch, ?_, ?_⟩
      · rw [hattempts, List.append_assoc]
        rfl
      · rw [List.map_cons, hrequest, hmap]

/-- A deadline that strikes takes the outcomes along. -/
theorem cancelBatch_struck (h : ¬ Timely worker deadline p.reads p.attempts.length requests) :
    ∃ text q, cancelBatch worker deadline requests p = .error (.deadline text) q := by
  induction requests generalizing p with
  | nil =>
    refine absurd (fun i r hr => ?_) h
    cases hr
  | cons cancelRequest requests ih =>
    rcases lt_or_ge (worker.clock p.reads) deadline with hclock | hclock
    · rcases cancelBatch_attempt cancelRequest requests hclock with ⟨text, -, hbatch⟩ |
          ⟨hanswer, outcome, -, hbatch⟩
      · exact ⟨text, _, hbatch⟩
      · obtain ⟨text, q, herror⟩ := ih (p := ⟨p.reads + 1, p.attempts ++ [cancelRequest]⟩) (by
          intro hrest
          exact h (timely_cons.mpr ⟨⟨hclock, hanswer⟩, by simpa using hrest⟩))
        rw [herror] at hbatch
        exact ⟨text, q, hbatch⟩
    · obtain ⟨text, hbatch⟩ := cancelBatch_late cancelRequest requests hclock
      exact ⟨text, _, hbatch⟩

theorem attempts_le :
    p.attempts.length ≤ (ending (cancelBatch worker deadline requests p)).attempts.length := by
  induction requests generalizing p with
  | nil => exact Nat.le_refl _
  | cons cancelRequest requests ih =>
    rcases lt_or_ge (worker.clock p.reads) deadline with hclock | hclock
    · have hnext : p.attempts.length ≤ (p.attempts ++ [cancelRequest]).length := by simp
      rcases cancelBatch_attempt cancelRequest requests hclock with ⟨text, -, hbatch⟩ |
          ⟨-, outcome, -, hbatch⟩
      · rw [hbatch]
        exact hnext
      · have hle := ih (p := ⟨p.reads + 1, p.attempts ++ [cancelRequest]⟩)
        rw [hbatch]
        cases hrest : cancelBatch worker deadline requests ⟨p.reads + 1, p.attempts ++ [cancelRequest]⟩ with
        | ok outcomes q =>
          rw [hrest] at hle
          exact hnext.trans hle
        | error e q =>
          rw [hrest] at hle
          exact hnext.trans hle
    · obtain ⟨text, hbatch⟩ := cancelBatch_late cancelRequest requests hclock
      rw [hbatch]
      exact Nat.le_refl _

/-- Nothing is attempted exactly if there is nothing to cancel or no time for the first cancel. -/
theorem no_attempt_iff (reads : Nat) (requests : List (CancelOrderRequest unicode)) :
    (ending (cancelBatch worker deadline requests ⟨reads, []⟩)).attempts = [] ↔
      requests = [] ∨ deadline ≤ worker.clock reads := by
  cases requests with
  | nil => exact iff_of_true rfl (.inl rfl)
  | cons cancelRequest requests =>
    rcases lt_or_ge (worker.clock reads) deadline with hclock | hclock
    · refine iff_of_false ?_ (by simp [hclock])
      have hle := @attempts_le _ worker deadline ⟨reads + 1, [cancelRequest]⟩ requests
      intro hnone
      rcases cancelBatch_attempt cancelRequest requests (p := ⟨reads, []⟩) hclock with
          ⟨text, -, hbatch⟩ | ⟨-, outcome, -, hbatch⟩
      · rw [hbatch] at hnone
        cases hnone
      · rw [hbatch] at hnone
        dsimp only [List.nil_append] at hnone
        cases hrest : cancelBatch worker deadline requests ⟨reads + 1, [cancelRequest]⟩ with
        | ok outcomes q =>
          rw [hrest] at hle hnone
          change q.attempts = [] at hnone
          simp [ending, hnone] at hle
        | error e q =>
          rw [hrest] at hle hnone
          change q.attempts = [] at hnone
          simp [ending, hnone] at hle
    · obtain ⟨text, hbatch⟩ := cancelBatch_late cancelRequest requests (p := ⟨reads, []⟩) hclock
      rw [hbatch]
      exact iff_of_true rfl (.inr hclock)

theorem cancelBatch_listing (orders : List ExchangeOrderRef)
    (requests : List (CancelOrderRequest unicode)) :
    cancelBatch (worker.listing orders) deadline requests = cancelBatch worker deadline requests := by
  induction requests with
  | nil => rfl
  | cons cancelRequest requests ih =>
    simp only [cancelBatch, ih]
    rfl
end

/-! ## Runs -/

section
variable {unicode : Unicode} {worker : Worker unicode} {counters : WorkerCounters}
  {request : TerminalExchangeRequest unicode} {orders : List ExchangeOrderRef}
variable (hop : request.operation = .terminalCommand) (hr : Refreshed worker request orders)
include hop hr

/-- The work of a command whose refresh succeeded. -/
theorem perform_eq : perform worker request { reads := 1, attempts := [] } =
    match sortOrders request orders with
    | .error message => .error (.other ("ValueError(" ++ worker.repr message ++ ")")) ⟨3, []⟩
    | .ok (kept, requests) =>
      match cancelBatch worker request.deadlineMonotonic requests ⟨3, []⟩ with
      | .ok outcomes q => .ok (kept ++ outcomes) q
      | .error e q => .error e q := by
  obtain ⟨hbegun, q, hrefresh⟩ := hr
  cases refresh_ok hrefresh
  have hcheck : checkDeadline worker request.deadlineMonotonic ⟨1, []⟩ = .ok () ⟨2, []⟩ :=
    checkDeadline_of_lt hbegun
  simp only [perform, bind, EStateM.bind, hcheck, hop, executeTerminalCommand, hrefresh]
  cases sortOrders request orders with
  | error message => rfl
  | ok sorted =>
    obtain ⟨kept, requests⟩ := sorted
    show EStateM.bind (cancelBatch worker request.deadlineMonotonic requests) _ ⟨3, []⟩ = _
    unfold EStateM.bind
    dsimp only
    cases cancelBatch worker request.deadlineMonotonic requests ⟨3, []⟩ with
    | ok outcomes q => rfl
    | error e q => rfl

theorem execute_refused {message : String} (h : sortOrders request orders = .error message) :
    (execute worker counters request).attempts = [] ∧
      (execute worker counters request).result.cancelOutcomes = [] := by
  rw [execute, perform_eq hop hr, h]
  exact ⟨rfl, rfl⟩

theorem execute_sorted {kept : List (TerminalExchangeCancelOutcome unicode)}
    {requests : List (CancelOrderRequest unicode)} (h : sortOrders request orders = .ok (kept, requests)) :
    (execute worker counters request).attempts =
        (ending (cancelBatch worker request.deadlineMonotonic requests ⟨3, []⟩)).attempts ∧
      (execute worker counters request).result.cancelOutcomes =
        match cancelBatch worker request.deadlineMonotonic requests ⟨3, []⟩ with
        | .ok outcomes _ => kept ++ outcomes
        | .error _ _ => [] := by
  rw [execute, perform_eq hop hr, h]
  dsimp only
  cases cancelBatch worker request.deadlineMonotonic requests ⟨3, []⟩ with
  | error e q => exact ⟨rfl, rfl⟩
  | ok outcomes q =>
    dsimp only
    rcases lt_or_ge (worker.clock q.reads) request.deadlineMonotonic with hlt | hle
    · rw [checkDeadline_of_lt hlt]
      exact ⟨rfl, rfl⟩
    · obtain ⟨text, htext⟩ := checkDeadline_of_le hle
      rw [htext]
      exact ⟨rfl, rfl⟩

end

section
variable {unicode : Unicode} (worker : Worker unicode) (counters : WorkerCounters)
  (request : TerminalExchangeRequest unicode) (orders : List ExchangeOrderRef)

theorem cancellable_wellFormed : cancellableOrders request (wellFormedOrders unicode orders) =
    (cancellableOrders request orders).filter fun order => ¬ Malformed unicode order := by
  rw [cancellableOrders, wellFormedOrders, cancellableOrders, List.filter_filter, List.filter_filter]
  congr 1
  funext order
  exact Bool.and_comm _ _

/-- A listing of well-formed orders only is sorted. -/
theorem sortOrders_wellFormed :
    ∃ kept requests, sortOrders request (wellFormedOrders unicode orders) = .ok (kept, requests) ∧
      List.Forall₂ Asks (cancellableOrders request (wellFormedOrders unicode orders)) requests := by
  obtain ⟨kept, requests, hsort, -, hrequests⟩ :=
    sortOrders_ok request (wellFormedOrders unicode orders) fun order hmem _ => by
      simpa using (List.mem_filter.mp hmem).2
  exact ⟨kept, requests, hsort, hrequests⟩

variable {worker request orders}

theorem Refreshed.listing (hr : Refreshed worker request orders) (others : List ExchangeOrderRef) :
    Refreshed (worker.listing others) request others := by
  obtain ⟨hbegun, p, hrefresh⟩ := hr
  have hasked : worker.clock 2 < request.deadlineMonotonic := by
    by_contra hle
    obtain ⟨text, htext⟩ := checkDeadline_of_le (p := ⟨2, []⟩) (not_lt.mp hle)
    simp only [refresh, bind, EStateM.bind, htext] at hrefresh
    cases hrefresh
  have hcheck : checkDeadline (worker.listing others) request.deadlineMonotonic ⟨2, []⟩ = .ok () ⟨3, []⟩ :=
    checkDeadline_of_lt hasked
  refine ⟨hbegun, ⟨3, []⟩, ?_⟩
  simp only [refresh, bind, EStateM.bind, hcheck]
  rfl

theorem forall₂_asks_unique {orders : List ExchangeOrderRef}
    {requests requests' : List (CancelOrderRequest unicode)}
    (h : List.Forall₂ Asks orders requests) (h' : List.Forall₂ Asks orders requests') :
      requests = requests' := by
  induction h generalizing requests' with
  | nil => exact (List.forall₂_nil_left_iff.mp h').symm
  | cons hasks _ ih =>
    cases h' with
    | cons hasks' hrest =>
      rw [ih hrest, Except.ok.inj (hasks.symm.trans hasks')]

/-- Without its malformed orders a listing leads to no cancel exactly if none is due or none in time. -/
theorem wellFormed_attempts (hop : request.operation = .terminalCommand)
    (hr : Refreshed worker request orders) :
    (execute (worker.listing (wellFormedOrders unicode orders)) counters request).attempts = [] ↔
      (∀ order ∈ cancellableOrders request orders, Malformed unicode order) ∨
        request.deadlineMonotonic ≤ worker.clock 3 := by
  obtain ⟨kept, requests, hsort, hrequests⟩ := sortOrders_wellFormed request orders
  rw [(execute_sorted hop (hr.listing _) hsort).1, cancelBatch_listing, no_attempt_iff]
  refine or_congr_left ?_
  have hnil : requests = [] ↔ cancellableOrders request (wellFormedOrders unicode orders) = [] := by
    rw [← List.length_eq_zero_iff, ← List.length_eq_zero_iff, hrequests.length_eq]
  rw [hnil, cancellable_wellFormed, List.filter_eq_nil_iff]
  simp

/-- A command that is disturbed loses every outcome. -/
theorem outcomes_of_disturbed (hop : request.operation = .terminalCommand)
    (hr : Refreshed worker request orders)
    (h : ¬ Undisturbed worker request orders) :
    (execute worker counters request).result.cancelOutcomes = [] := by
  by_cases hformed : ∀ order ∈ orders, OfScope request order → ¬ Malformed unicode order
  · obtain ⟨kept, requests, hsort, -, hrequests⟩ := sortOrders_ok request orders hformed
    obtain ⟨text, q, hstruck⟩ := @cancelBatch_struck _ worker _ ⟨3, []⟩ requests
      fun htimely => h ⟨hformed, fun others hothers => forall₂_asks_unique hrequests hothers ▸ htimely⟩
    rw [(execute_sorted hop hr hsort).2, hstruck]
  · push Not at hformed
    obtain ⟨message, hmessage⟩ := sortOrders_error request orders hformed
    exact (execute_refused hop hr hmessage).2

/-- Where nothing is owed, nothing is attempted. -/
theorem attempts_of_nothingOwed (hop : request.operation = .terminalCommand)
    (hr : Refreshed worker request orders) (h : NothingOwed worker request orders) :
    (execute worker counters request).attempts = [] := by
  by_cases hformed : ∀ order ∈ orders, OfScope request order → ¬ Malformed unicode order
  · obtain ⟨kept, requests, hsort, -, hrequests⟩ := sortOrders_ok request orders hformed
    rw [(execute_sorted hop hr hsort).1, no_attempt_iff]
    refine h.2.imp_left fun hmalformed => ?_
    have hnone : cancellableOrders request orders = [] := by
      refine List.eq_nil_iff_forall_not_mem.mpr fun order hmem => ?_
      obtain ⟨hlisted, hkeep⟩ := List.mem_filter.mp hmem
      exact hformed order hlisted (of_decide_eq_true hkeep).1 (hmalformed order hmem)
    rw [hnone] at hrequests
    exact List.forall₂_nil_left_iff.mp hrequests
  · push Not at hformed
    obtain ⟨message, hmessage⟩ := sortOrders_error request orders hformed
    exact (execute_refused hop hr hmessage).1

/-- No protective order is to be cancelled by a command that spares them. -/
theorem unprotected_of_cancellable (hpurpose : request.purpose = "cancel_all") {order : ExchangeOrderRef}
    (h : order ∈ cancellableOrders request orders) : terminalOrderIsProtection unicode order = false := by
  have hnone := (of_decide_eq_true (List.mem_filter.mp h).2).2
  unfold preservationOutcome terminalOrderPreservationOutcome at hnone
  split_ifs at hnone with hdurable hprotection
  · simp at hnone
  · simp at hnone
  · simpa [hpurpose] using hprotection

/-- An undisturbed command answers for all it touched. -/
theorem Undisturbed.accounts (h : Undisturbed worker request orders)
    (hop : request.operation = .terminalCommand) (hr : Refreshed worker request orders) :
    CommandAccounts worker counters request orders := by
  obtain ⟨kept, requests, hsort, hkept, hrequests⟩ := sortOrders_ok request orders h.formed
  obtain ⟨outcomes, q, hok, hattempts, hmap⟩ := cancelBatch_timely (p := ⟨3, []⟩) requests
    (h.timely requests hrequests)
  obtain ⟨hrun, hout⟩ := @execute_sorted _ _ counters _ _ hop hr _ _ hsort
  rw [hok] at hrun hout
  have hall : (execute worker counters request).attempts = requests := hrun.trans hattempts
  refine ⟨⟨cancellableOrders request orders, ?_, List.filter_sublist, ?_, ?_,
    preservedOrders request orders ++ cancellableOrders request orders, List.perm_append_comm, ?_⟩, ?_⟩
  · rw [hall]
    exact hrequests
  · intro order hmem
    exact (of_decide_eq_true (List.mem_filter.mp hmem).2).1
  · intro hpurpose order hmem
    exact unprotected_of_cancellable hpurpose hmem
  · rw [hout]
    refine List.rel_append hkept ?_
    rwa [← hmap, List.forall₂_map_right_iff] at hrequests
  · -- no order to cancel is malformed, so the other listing asks for the same cancels
    obtain ⟨kept', requests', hsort', hrequests'⟩ := sortOrders_wellFormed request orders
    rw [cancellable_wellFormed, List.filter_eq_self.mpr] at hrequests'
    · rw [(execute_sorted hop (hr.listing _) hsort').1, cancelBatch_listing,
        forall₂_asks_unique hrequests' hrequests, hall]
      show _ = (ending (cancelBatch worker request.deadlineMonotonic requests ⟨3, []⟩)).attempts
      rw [hok]
      exact hattempts.symm
    · intro order hmem
      obtain ⟨hlisted, hkeep⟩ := List.mem_filter.mp hmem
      exact decide_eq_true (h.formed order hlisted (of_decide_eq_true hkeep).1)

/-! ## The account -/

/-- A command whose refresh succeeded answers for every order it touched, and malformed orders
do not keep it from its cancels, exactly if nothing is owed or it is undisturbed. -/
theorem command_accounts_iff (hop : request.operation = .terminalCommand)
    (hr : Refreshed worker request orders) :
    CommandAccounts worker counters request orders ↔
      NothingOwed worker request orders ∨ Undisturbed worker request orders := by
  constructor
  · intro ⟨⟨cancelled, hanswers⟩, hundeterred⟩
    by_cases hcalm : Undisturbed worker request orders
    · exact .inr hcalm
    -- the outcomes are lost, so none may be owed
    obtain ⟨owed, hperm, howed⟩ := hanswers.outcomes
    rw [outcomes_of_disturbed counters hop hr hcalm, List.forall₂_nil_right_iff] at howed
    rw [howed] at hperm
    obtain ⟨hcancelled, hpreserved⟩ := List.append_eq_nil_iff.mp hperm.nil_eq.symm
    have hattempts := hanswers.attempted
    rw [hcancelled, List.forall₂_nil_left_iff] at hattempts
    exact .inl ⟨hpreserved, (wellFormed_attempts counters hop hr).mp (hundeterred.symm.trans hattempts)⟩
  · intro h
    by_cases hcalm : Undisturbed worker request orders
    · exact hcalm.accounts counters hop hr
    have howed := h.resolve_right hcalm
    have hattempts := attempts_of_nothingOwed counters hop hr howed
    refine ⟨⟨[], ?_, List.nil_sublist _, ?_, ?_, [], ?_, ?_⟩, ?_⟩
    · rw [hattempts]
      exact .nil
    · intro order hmem
      cases hmem
    · intro _ order hmem
      cases hmem
    · rw [howed.1]
      exact .refl _
    · rw [outcomes_of_disturbed counters hop hr hcalm]
      exact .nil
    · rw [hattempts, (wellFormed_attempts counters hop hr).mpr howed.2]

end

/-! ## A deadline within the cancels, and a malformed order -/

/-- An order of the robot, as the control plane serves it. -/
def servedOrder (clientOrderId venueOrderId : String) : Json.Value :=
  .obj [("client_order_id", .str clientOrderId), ("position_side", .str "BOTH"), ("side", .str "BUY"),
    ("symbol", .str "BTCUSDT"), ("type", .str "LIMIT"), ("venue_order_id", .str venueOrderId)]

/-- An algo order with this id of the venue, behind a regular order. -/
def servedListing (algoId : String) : List ExchangeOrderRef :=
  parseExchangeOrders Orders.Env.plain "acct"
    (.obj [("algo_orders", .arr [servedOrder "B0123456789abcdef0123456789abcdef12" algoId]),
      ("open_orders", .arr [servedOrder "B0123456789abcdef0123456789abcdef11" "7"])])

def cancelAll : TerminalExchangeRequest .ascii where
  requestId := "req"
  accountId := "acct"
  operation := .terminalCommand
  purpose := "cancel_all"
  deadlineMonotonic := 10
  instrumentIds := []
  cancelRequests := []
  durableEntryPreservations := []
  request_named := by decide +kernel
  account_named := by decide +kernel
  purpose_named := by decide +kernel
  deadline_pos := by norm_num
  batch_only := fun _ => rfl
  command_only := fun _ => rfl
  unique := .nil

/-- A worker whose adapter cancels a number of orders, then runs into the deadline. -/
def slowWorker (cancels : Nat) (listing : List ExchangeOrderRef) : Worker .ascii where
  name := "worker"
  clock _ := 0
  mirror := some fun _ => .orders listing
  adapter := some fun attempt _ _ =>
    if attempt < cancels then .result "CANCELED" "canceled" else .deadlineError "total deadline exceeded"
  repr text := "'" ++ text ++ "'"

def freshCounters : WorkerCounters := ⟨0, 0, 0, false, none, ""⟩

theorem AnswersFor.attempts_le {unicode : Unicode} {request : TerminalExchangeRequest unicode}
    {orders cancelled : List ExchangeOrderRef} {run : Run unicode}
    (h : AnswersFor request orders run cancelled) :
    run.attempts.length ≤ run.result.cancelOutcomes.length := by
  obtain ⟨owed, hperm, howed⟩ := h.outcomes
  rw [← h.attempted.length_eq, ← howed.length_eq, hperm.length_eq, List.length_append]
  exact Nat.le_add_right _ _

theorem slowWorker_refreshed (cancels : Nat) (listing : List ExchangeOrderRef) :
    Refreshed (slowWorker cancels listing) cancelAll listing :=
  ⟨by norm_num [slowWorker, cancelAll], _, rfl⟩

/-- With time for both cancels the command answers for them. -/
theorem command_accounts_in_time :
    CommandAccounts (slowWorker 2 (servedListing "8")) freshCounters cancelAll (servedListing "8") := by
  refine (command_accounts_iff freshCounters rfl (slowWorker_refreshed _ _)).mpr (.inr ⟨?_, ?_⟩)
  · decide +kernel
  · intro requests hrequests i cancelRequest hi
    have hlength : requests.length = 2 := by
      rw [← hrequests.length_eq]
      decide +kernel
    have hlt : i < 2 := hlength ▸ (List.getElem?_eq_some_iff.mp hi).1
    refine ⟨by norm_num [slowWorker, cancelAll], fun text => ?_⟩
    have hanswer : cancelAnswer (slowWorker 2 (servedListing "8")) i cancelRequest = .result "CANCELED" "canceled" := by
      unfold cancelAnswer slowWorker
      dsimp only
      rw [if_pos hlt]
    rw [Nat.zero_add, hanswer]
    nofun

/-- The first order is cancelled and the second runs into the deadline: no outcome is left. And an
algo order without an id of the venue keeps the other from being cancelled at all. -/
theorem outcomes_lost :
    (Refreshed (slowWorker 1 (servedListing "8")) cancelAll (servedListing "8") ∧
      ¬ CommandAccounts (slowWorker 1 (servedListing "8")) freshCounters cancelAll (servedListing "8")) ∧
    Refreshed (slowWorker 2 (servedListing "")) cancelAll (servedListing "") ∧
      ¬ CommandAccounts (slowWorker 2 (servedListing "")) freshCounters cancelAll (servedListing "") := by
  refine ⟨⟨slowWorker_refreshed _ _, ?_⟩, slowWorker_refreshed _ _, ?_⟩
  · intro h
    obtain ⟨cancelled, hanswers⟩ := h.answers
    have hle := hanswers.attempts_le
    revert hle
    decide +kernel
  · intro h
    have hsame := congrArg List.length h.undeterred
    revert hsame
    decide +kernel

end TraderBot.TerminalExchange
