import TraderBot.ControlPlaneSession.Model

/-! # Nothing is dropped at shutdown

A submission reads the stop flag first and puts its item later, when the worker may
have seen the flag, found the queue empty and gone, and `stop` may have looked at
the queue for the last time: the item is accepted, and nobody is left to deliver it
(`late_put_dropped`). In every run in which no item is put after that look, a stop
that returns `True` leaves no accepted item behind, and every lane delivers in the
order of its queue (`nothing_dropped`). -/
namespace TraderBot.ControlPlaneSession
open TraderBot.Lib

/-! ## What a worker does to its lane -/

/-- What a step of a worker does to the items of its lane. -/
inductive Moves (drainFailed : Bool) (lane lane' : Lane) : Prop
  | stays (hqueue : lane'.queue = lane.queue) (henqueued : lane'.enqueued = lane.enqueued)
      (htaken : lane'.taken = lane.taken) (hreceived : lane'.received = lane.received)
      (hdelivered : lane'.delivered = lane.delivered) (hheld : lane'.worker.held = lane.worker.held)
  | takes (item : Nat) (hqueue : lane.queue = item :: lane'.queue) (henqueued : lane'.enqueued = lane.enqueued)
      (htaken : lane'.taken = lane.taken) (hreceived : lane'.received = lane.received)
      (hdelivered : lane'.delivered = lane.delivered) (hheld : lane.worker.held = [])
      (hheld' : lane'.worker.held = [item])
  | receives (item : Nat) (hqueue : lane'.queue = lane.queue) (henqueued : lane'.enqueued = lane.enqueued)
      (htaken : lane'.taken = lane.taken) (hreceived : lane'.received = (lane.receive item).received)
      (hdelivered : lane'.delivered = lane.delivered) (hheld : lane.worker.held = [item])
      (hheld' : lane'.worker.held = [item])
  | delivers (item : Nat) (hqueue : lane'.queue = lane.queue) (henqueued : lane'.enqueued = lane.enqueued)
      (htaken : lane'.taken = lane.taken ++ [item]) (hreceived : lane'.received = (lane.receive item).received)
      (hdelivered : lane'.delivered = lane.delivered ++ [item]) (hheld : lane.worker.held = [item])
      (hheld' : lane'.worker.held = [])
  | drops (item : Nat) (hfailed : drainFailed = true) (hqueue : lane'.queue = lane.queue)
      (henqueued : lane'.enqueued = lane.enqueued) (htaken : lane'.taken = lane.taken ++ [item])
      (hreceived : lane'.received = lane.received) (hdelivered : lane'.delivered = lane.delivered)
      (hheld : lane.worker.held = [item]) (hheld' : lane'.worker.held = [])

/-- Every item put into a lane is with its worker, still queued or done with, in the order it was
put; what is done with is delivered or a drain failed. -/
structure LaneOk (drainFailed : Bool) (lane : Lane) : Prop where
  order : lane.enqueued = lane.taken ++ lane.worker.held ++ lane.queue
  settled : ∀ i ∈ lane.taken, i ∈ lane.delivered ∨ drainFailed = true
  received : lane.received.Sublist (lane.taken ++ lane.worker.held)
  delivered : lane.delivered.Sublist lane.taken

theorem LaneOk.start : LaneOk false .start := ⟨rfl, by simp [Lane.start], by simp [Lane.start], by simp [Lane.start]⟩

theorem LaneOk.mono {failed failed' : Bool} {lane : Lane} (h : LaneOk failed lane)
    (hfailed : failed = true → failed' = true) : LaneOk failed' lane :=
  ⟨h.order, fun i hi => (h.settled i hi).imp id hfailed, h.received, h.delivered⟩

/-- What was received before the worker got its item was so in order. -/
theorem received_sublist {received taken : List Nat} {item : Nat} (h : received.Sublist (taken ++ [item])) :
    (if item ∈ received then received else received ++ [item]).Sublist (taken ++ [item]) := by
  split_ifs with hmem
  · exact h
  · obtain ⟨front, back, rfl, hfront, hback⟩ := List.sublist_append_iff.mp h
    cases back with
    | nil =>
      rw [List.append_nil]
      exact hfront.append (List.Sublist.refl _)
    | cons x back =>
      have hx : x = item := by simpa using hback.subset List.mem_cons_self
      subst hx
      exact absurd (List.mem_append_right _ List.mem_cons_self) hmem

theorem LaneOk.moves {failed : Bool} {lane lane' : Lane} (h : LaneOk failed lane)
    (hmoves : Moves failed lane lane') : LaneOk failed lane' := by
  cases hmoves with
  | stays hqueue henqueued htaken hreceived hdelivered hheld =>
    exact ⟨by rw [henqueued, htaken, hheld, hqueue]; exact h.order,
      by rw [htaken, hdelivered]; exact h.settled, by rw [hreceived, htaken, hheld]; exact h.received,
      by rw [hdelivered, htaken]; exact h.delivered⟩
  | takes item hqueue henqueued htaken hreceived hdelivered hheld hheld' =>
    have hin := h.received
    rw [hheld, List.append_nil] at hin
    refine ⟨?_, by rw [htaken, hdelivered]; exact h.settled, ?_, by rw [hdelivered, htaken]; exact h.delivered⟩
    · rw [henqueued, h.order, htaken, hheld, hheld', hqueue]
      simp
    · rw [hreceived, htaken]
      exact hin.trans (List.sublist_append_left _ _)
  | receives item hqueue henqueued htaken hreceived hdelivered hheld hheld' =>
    have hin := h.received
    rw [hheld] at hin
    refine ⟨by rw [henqueued, htaken, hheld', hqueue, ← hheld]; exact h.order,
      by rw [htaken, hdelivered]; exact h.settled, ?_, by rw [hdelivered, htaken]; exact h.delivered⟩
    rw [hreceived, htaken, hheld']
    exact received_sublist hin
  | delivers item hqueue henqueued htaken hreceived hdelivered hheld hheld' =>
    have hin := h.received
    rw [hheld] at hin
    refine ⟨?_, fun i hi => ?_, ?_, ?_⟩
    · rw [henqueued, htaken, hheld', hqueue, h.order, hheld]
      simp
    · rw [htaken] at hi
      rw [hdelivered]
      rcases List.mem_append.mp hi with hi | hi
      · exact (h.settled i hi).imp (List.mem_append_left _) id
      · exact .inl (List.mem_append_right _ hi)
    · rw [hreceived, htaken, hheld', List.append_nil]
      exact received_sublist hin
    · rw [hdelivered, htaken]
      exact h.delivered.append (List.Sublist.refl _)
  | drops item hfailed hqueue henqueued htaken hreceived hdelivered hheld hheld' =>
    have hin := h.received
    rw [hheld] at hin
    refine ⟨?_, fun i _ => .inr hfailed, by rw [hreceived, htaken, hheld', List.append_nil]; exact hin, ?_⟩
    · rw [henqueued, htaken, hheld', hqueue, h.order, hheld]
      simp
    · rw [hdelivered, htaken]
      exact h.delivered.trans (List.sublist_append_left _ _)

/-! ## What a turn does to the session -/

/-- A step of a worker moves items of its own lane, and leaves the calls alone. -/
structure WorkerEffect (s s' : Session) (name : LaneName) : Prop where
  moves : Moves s'.drainFailed (s.lanes name) (s'.lanes name)
  others : ∀ other, other ≠ name → s'.lanes other = s.lanes other
  submissions : s'.submissions = s.submissions
  stopPoint : s'.stopPoint = s.stopPoint
  periodicAlive : s'.periodicAlive = s.periodicAlive
  drain : s.drainFailed = true → s'.drainFailed = true
  running : (s.lanes name).worker ≠ .exited

section
variable {cfg : Config} {s s' : Session} {name : LaneName} {ok : Bool}

@[simp] theorem setLane_self (lane : Lane) : (s.setLane name lane).lanes name = lane := if_pos rfl

theorem setLane_other {lane : Lane} {other : LaneName} (h : other ≠ name) :
    (s.setLane name lane).lanes other = s.lanes other := if_neg h

/-- A step that changes only the worker's own lane. -/
theorem WorkerEffect.of_setLane {lane : Lane} (hmoves : Moves s.drainFailed (s.lanes name) lane)
    (hrunning : (s.lanes name).worker ≠ .exited) : WorkerEffect s (s.setLane name lane) name where
  moves := by
    rw [setLane_self]
    exact hmoves
  others _ := setLane_other
  submissions := rfl
  stopPoint := rfl
  periodicAlive := rfl
  drain := id
  running := hrunning

/-- A fatal termination moves nothing. -/
theorem WorkerEffect.fatal (h : WorkerEffect s s' name) :
    WorkerEffect s (s'.triggerFatalTermination name) name := by
  unfold Session.triggerFatalTermination
  split_ifs with hinvoked
  · exact h
  · refine ⟨?_, fun other hother => ?_, h.submissions, h.stopPoint, h.periodicAlive, h.drain, h.running⟩
    · have hmoves := h.moves
      show Moves s'.drainFailed (s.lanes name) (if name = name then _ else _)
      rw [if_pos rfl]
      cases hmoves with
      | stays h1 h2 h3 h4 h5 h6 => exact .stays h1 h2 h3 h4 h5 h6
      | takes item h1 h2 h3 h4 h5 h6 h7 => exact .takes item h1 h2 h3 h4 h5 h6 h7
      | receives item h1 h2 h3 h4 h5 h6 h7 => exact .receives item h1 h2 h3 h4 h5 h6 h7
      | delivers item h1 h2 h3 h4 h5 h6 h7 => exact .delivers item h1 h2 h3 h4 h5 h6 h7
      | drops item h0 h1 h2 h3 h4 h5 h6 h7 => exact .drops item h0 h1 h2 h3 h4 h5 h6 h7
    · show (if other = name then _ else _) = _
      rw [if_neg hother]
      exact h.others other hother

/-- Going to another point with the same item. -/
theorem WorkerEffect.goto {point : WorkerPoint} (hheld : point.held = (s.lanes name).worker.held)
    (hrunning : (s.lanes name).worker ≠ .exited) :
    WorkerEffect s (s.setLane name { s.lanes name with worker := point }) name :=
  .of_setLane (.stays rfl rfl rfl rfl rfl hheld) hrunning

theorem afterWait_held (item : Nat) (what : Waiting) (waited : Bool) : (afterWait item what waited).held = [item] := by
  cases what with
  | circuit use => cases use <;> cases waited <;> rfl
  | retry attempt => cases waited <;> rfl

theorem afterCircuit_held (item : Nat) (use : CircuitUse) : (afterCircuit item use).held = [item] := by
  cases use <;> rfl

theorem actionRaised_effect {item attempt : Nat} {halfOpen : Bool}
    (hheld : (s.lanes name).worker.held = [item]) (hrunning : (s.lanes name).worker ≠ .exited) :
    WorkerEffect s (actionRaised cfg s name item attempt halfOpen) name := by
  unfold actionRaised
  dsimp only
  split_ifs <;> exact .of_setLane (.stays rfl rfl rfl rfl rfl hheld.symm) hrunning

theorem actionReturned_effect {item startedAt : Nat}
    (hheld : (s.lanes name).worker.held = [item]) (hrunning : (s.lanes name).worker ≠ .exited) :
    WorkerEffect s (actionReturned cfg s name item startedAt) name := by
  unfold actionReturned
  dsimp only
  split_ifs
  · refine WorkerEffect.fatal (.of_setLane ?_ hrunning)
    exact .receives item rfl rfl rfl rfl rfl hheld rfl
  · refine WorkerEffect.fatal (.of_setLane ?_ hrunning)
    exact .receives item rfl rfl rfl rfl rfl hheld rfl
  · exact .of_setLane (.delivers item rfl rfl rfl rfl rfl hheld rfl) hrunning

theorem workerStep_effect (h : workerStep cfg s name ok = some s') : WorkerEffect s s' name := by
  unfold workerStep at h
  dsimp only at h
  cases hworker : (s.lanes name).worker with
  | exited =>
    rw [hworker] at h
    cases h
  | top =>
    rw [hworker] at h
    cases h
    exact .goto (by rw [hworker]; split_ifs <;> rfl) (by rw [hworker]; nofun)
  | checkEmpty =>
    rw [hworker] at h
    cases h
    exact .goto (by rw [hworker]; split_ifs <;> rfl) (by rw [hworker]; nofun)
  | checkDeadline =>
    rw [hworker] at h
    cases h
    exact .goto (by rw [hworker]; split_ifs <;> rfl) (by rw [hworker]; nofun)
  | failDrain =>
    rw [hworker] at h
    cases h
    refine ⟨?_, fun _ => setLane_other, rfl, rfl, rfl, fun _ => rfl, by rw [hworker]; nofun⟩
    show Moves true _ ((s.setLane name _).lanes name)
    rw [setLane_self]
    exact .stays rfl rfl rfl rfl rfl (by rw [hworker]; rfl)
  | getItem =>
    rw [hworker] at h
    dsimp only at h
    split at h
    · cases h
      exact .goto (by rw [hworker]; rfl) (by rw [hworker]; nofun)
    · rename_i item rest hqueue
      cases h
      exact .of_setLane (.takes item hqueue rfl rfl rfl rfl (by rw [hworker]; rfl) rfl) (by rw [hworker]; nofun)
  | holding item =>
    rw [hworker] at h
    cases h
    exact .goto (by rw [hworker]; split_ifs <;> rfl) (by rw [hworker]; nofun)
  | giveUp item =>
    rw [hworker] at h
    cases h
    refine ⟨?_, fun _ => setLane_other, rfl, rfl, rfl, fun _ => rfl, by rw [hworker]; nofun⟩
    show Moves true _ ((s.setLane name _).lanes name)
    rw [setLane_self]
    exact .drops item rfl rfl rfl rfl rfl rfl (by rw [hworker]; rfl) rfl
  | circuit item use =>
    rw [hworker] at h
    dsimp only at h
    split at h
    · split_ifs at h
      · cases h
        exact .goto (by rw [hworker]; rfl) (by rw [hworker]; nofun)
      · cases h
        exact .of_setLane (.stays rfl rfl rfl rfl rfl (by rw [hworker]; exact afterCircuit_held item use))
          (by rw [hworker]; nofun)
    · cases h
      exact .goto (by rw [hworker]; exact afterCircuit_held item use) (by rw [hworker]; nofun)
  | waiting item what =>
    rw [hworker] at h
    dsimp only at h
    split_ifs at h
    · cases h
      exact .goto (by rw [hworker]; rfl) (by rw [hworker]; nofun)
    · cases h
      exact .goto (by rw [hworker]; exact afterWait_held item what false) (by rw [hworker]; nofun)
    · cases h
      exact .goto (by rw [hworker]; rfl) (by rw [hworker]; nofun)
  | onFlag item what =>
    rw [hworker] at h
    dsimp only at h
    split_ifs at h
    · cases h
      exact .goto (by rw [hworker]; exact afterWait_held item what true) (by rw [hworker]; nofun)
    · cases h
      exact .goto (by rw [hworker]; exact afterWait_held item what false) (by rw [hworker]; nofun)
  | asleep item what =>
    rw [hworker] at h
    cases h
    exact .goto (by rw [hworker]; exact afterWait_held item what _) (by rw [hworker]; nofun)
  | starting item attempt =>
    rw [hworker] at h
    dsimp only at h
    split_ifs at h
    · cases h
      exact .of_setLane (.stays rfl rfl rfl rfl rfl (by rw [hworker]; rfl)) (by rw [hworker]; nofun)
    · cases h
      exact .goto (by rw [hworker]; rfl) (by rw [hworker]; nofun)
  | running item attempt halfOpen startedAt =>
    rw [hworker] at h
    have hheld : (s.lanes name).worker.held = [item] := by rw [hworker]; rfl
    have hrunning : (s.lanes name).worker ≠ .exited := by rw [hworker]; nofun
    cases h
    cases ok with
    | true => exact actionReturned_effect hheld hrunning
    | false => exact actionRaised_effect hheld hrunning

end

/-! ## What holds in every run -/

/-- `stop` has found the queue of the execution events empty. -/
def inspected : StopPoint → Bool
  | .queues rest => !rest.contains .executionEvent
  | .returned stopped => stopped
  | _ => false

/-- No execution event is put into its queue once `stop` has found that queue empty. -/
def Undisturbed (s : Session) : Turn → Prop
  | .submission i =>
    ¬(s.submissions[i]? = some ⟨.executionEvent, .put⟩ ∧ inspected s.stopPoint = true)
  | _ => True

instance (s : Session) : DecidablePred (Undisturbed s) := fun turn => by
  cases turn <;> unfold Undisturbed <;> infer_instance

/-- The item of a submission has been put into its queue. -/
def SubmissionPoint.isIn : SubmissionPoint → Bool
  | .pressure | .returned true => true
  | _ => false

/-- What the call of `stop` has found still holds. -/
def StopOk (s : Session) : Prop :=
  match s.stopPoint with
  | .alive rest => ∀ thread, thread ∉ rest → s.exited thread = true
  | .drain => ∀ thread, s.exited thread = true
  | .queues rest => (∀ thread, s.exited thread = true) ∧ s.drainFailed = false ∧
      (inspected (.queues rest) = true → (s.lanes .executionEvent).queue = [])
  | .returned stopped => stopped = true → (∀ thread, s.exited thread = true) ∧ s.drainFailed = false ∧
      (s.lanes .executionEvent).queue = []
  | _ => True

structure Ok (s : Session) : Prop where
  lanes : ∀ name, LaneOk s.drainFailed (s.lanes name)
  accepted : ∀ i submission, s.submissions[i]? = some submission → submission.point.isIn = true →
    i ∈ (s.lanes submission.lane).enqueued
  stopped : StopOk s

section
variable {cfg : Config} {s s' : Session} {name : LaneName} {ok : Bool}

theorem mem_threads (thread : ThreadName) : thread ∈ threads := by
  cases thread with
  | periodic name => cases name <;> decide
  | delivery name => cases name <;> decide

/-- What `stop` has found stays so while no worker is left and its queue is not put into. -/
theorem StopOk.mono (h : StopOk s) (hpoint : s'.stopPoint = s.stopPoint)
    (hexited : ∀ thread, s.exited thread = true → s'.exited thread = true)
    (hleft : (∀ thread, s.exited thread = true) →
      (s.drainFailed = false → s'.drainFailed = false) ∧
        (inspected s.stopPoint = true → (s.lanes .executionEvent).queue = [] →
          (s'.lanes .executionEvent).queue = [])) : StopOk s' := by
  unfold StopOk at h ⊢
  rw [hpoint]
  cases hs : s.stopPoint with
  | notCalled => trivial
  | setFlag cutoff => trivial
  | testFatal cutoff => trivial
  | joining cutoff rest => trivial
  | alive rest =>
    rw [hs] at h
    exact fun thread hthread => hexited thread (h thread hthread)
  | drain =>
    rw [hs] at h
    exact fun thread => hexited thread (h thread)
  | queues rest =>
    rw [hs] at h
    obtain ⟨hall, hdrain, hqueue⟩ := h
    obtain ⟨hdrain', hqueue'⟩ := hleft hall
    exact ⟨fun thread => hexited thread (hall thread), hdrain' hdrain,
      fun hin => hqueue' (by rw [hs]; exact hin) (hqueue hin)⟩
  | returned stopped =>
    rw [hs] at h
    intro hstopped
    obtain ⟨hall, hdrain, hqueue⟩ := h hstopped
    obtain ⟨hdrain', hqueue'⟩ := hleft hall
    exact ⟨fun thread => hexited thread (hall thread), hdrain' hdrain,
      hqueue' (by rw [hs]; exact hstopped) hqueue⟩

@[simp] theorem exited_periodic {thread : PeriodicThread} :
    s.exited (.periodic thread) = true ↔ s.periodicAlive thread = false := by
  simp [Session.exited]

@[simp] theorem exited_delivery : s.exited (.delivery name) = true ↔ (s.lanes name).worker = .exited := by
  simp [Session.exited]

/-- A lane whose worker and items stay as they are. -/
structure SameItems (lane lane' : Lane) : Prop where
  worker : lane'.worker = lane.worker
  queue : lane'.queue = lane.queue
  enqueued : lane'.enqueued = lane.enqueued
  taken : lane'.taken = lane.taken
  received : lane'.received = lane.received
  delivered : lane'.delivered = lane.delivered

theorem SameItems.refl (lane : Lane) : SameItems lane lane := ⟨rfl, rfl, rfl, rfl, rfl, rfl⟩

theorem SameItems.moves {failed : Bool} {lane lane' : Lane} (h : SameItems lane lane') :
    Moves failed lane lane' :=
  .stays h.queue h.enqueued h.taken h.received h.delivered (congrArg WorkerPoint.held h.worker)

/-- A turn that leaves each worker and all items as they are. -/
structure Quiet (s s' : Session) : Prop where
  lanes : ∀ name, SameItems (s.lanes name) (s'.lanes name)
  periodicAlive : ∀ thread, s.periodicAlive thread = false → s'.periodicAlive thread = false
  drainFailed : s'.drainFailed = s.drainFailed
  stopPoint : s'.stopPoint = s.stopPoint

theorem Quiet.setLane {lane : Lane} (h : SameItems (s.lanes name) lane) : Quiet s (s.setLane name lane) where
  lanes other := by
    by_cases hother : other = name
    · rw [hother, setLane_self]
      exact h
    · rw [setLane_other hother]
      exact .refl _
  periodicAlive _ := id
  drainFailed := rfl
  stopPoint := rfl

theorem Quiet.fatal (h : Quiet s s') : Quiet s (s'.triggerFatalTermination name) := by
  unfold Session.triggerFatalTermination
  split_ifs with hinvoked
  · exact h
  · refine ⟨fun other => ?_, h.periodicAlive, h.drainFailed, h.stopPoint⟩
    have hsame := h.lanes other
    show SameItems _ (if other = name then _ else _)
    split_ifs with hother
    · subst hother
      exact ⟨hsame.worker, hsame.queue, hsame.enqueued, hsame.taken, hsame.received, hsame.delivered⟩
    · exact hsame

theorem Quiet.exited (h : Quiet s s') (thread : ThreadName) (hexited : s.exited thread = true) :
    s'.exited thread = true := by
  cases thread with
  | periodic thread =>
    rw [exited_periodic] at hexited ⊢
    exact h.periodicAlive thread hexited
  | delivery name =>
    rw [exited_delivery] at hexited ⊢
    exact (h.lanes name).worker.trans hexited

/-- A quiet turn keeps what holds, whatever it makes of the submissions whose items are in. -/
theorem Ok.quiet (h : Ok s) (hquiet : Quiet s s')
    (haccepted : ∀ i submission, s'.submissions[i]? = some submission → submission.point.isIn = true →
      i ∈ (s.lanes submission.lane).enqueued) : Ok s' where
  lanes name := by
    rw [hquiet.drainFailed]
    exact (h.lanes name).moves (hquiet.lanes name).moves
  accepted i submission hi hin := by
    rw [(hquiet.lanes _).enqueued]
    exact haccepted i submission hi hin
  stopped := h.stopped.mono hquiet.stopPoint hquiet.exited fun _ =>
    ⟨fun hdrain => hquiet.drainFailed.trans hdrain, fun _ hqueue => (hquiet.lanes _).queue.trans hqueue⟩

theorem Ok.start : Ok .start where
  lanes _ := .start
  accepted i submission hi := by
    rw [Session.start, List.getElem?_nil] at hi
    cases hi
  stopped := trivial

/-! ### Workers -/

theorem Moves.enqueued_eq {failed : Bool} {lane lane' : Lane} (h : Moves failed lane lane') :
    lane'.enqueued = lane.enqueued := by
  cases h with
  | stays _ h => exact h
  | takes _ _ h => exact h
  | receives _ _ h => exact h
  | delivers _ _ h => exact h
  | drops _ _ _ h => exact h

theorem Ok.worker (h : Ok s) (heffect : WorkerEffect s s' name) : Ok s' := by
  refine ⟨fun other => ?_, fun i submission hi hin => ?_, ?_⟩
  · by_cases hother : other = name
    · subst hother
      exact ((h.lanes other).mono heffect.drain).moves heffect.moves
    · rw [heffect.others other hother]
      exact (h.lanes other).mono heffect.drain
  · rw [heffect.submissions] at hi
    have henqueued : (s'.lanes submission.lane).enqueued = (s.lanes submission.lane).enqueued := by
      by_cases hother : submission.lane = name
      · rw [hother]
        exact heffect.moves.enqueued_eq
      · rw [heffect.others _ hother]
    rw [henqueued]
    exact h.accepted i submission hi hin
  · refine h.stopped.mono heffect.stopPoint (fun thread hexited => ?_) fun hall => ?_
    · cases thread with
      | periodic thread =>
        rw [exited_periodic] at hexited ⊢
        rw [heffect.periodicAlive]
        exact hexited
      | delivery other =>
        rw [exited_delivery] at hexited ⊢
        by_cases hother : other = name
        · subst hother
          exact absurd hexited heffect.running
        · rw [heffect.others other hother]
          exact hexited
    · exact absurd (exited_delivery.mp (hall (.delivery name))) heffect.running

/-! ### The surroundings -/

theorem triggerFatalTermination_submissions :
    (s.triggerFatalTermination name).submissions = s.submissions := by
  unfold Session.triggerFatalTermination
  split_ifs <;> rfl

theorem Ok.watchdog (h : Ok s) (hstep : watchdogStep cfg s name = some s') : Ok s' := by
  unfold watchdogStep at hstep
  dsimp only at hstep
  split at hstep
  · cases hstep
  split_ifs at hstep
  cases hstep
  refine h.quiet (Quiet.fatal (.setLane ⟨rfl, rfl, rfl, rfl, rfl, rfl⟩)) ?_
  rw [triggerFatalTermination_submissions]
  exact h.accepted

/-! ### Submissions -/

theorem getElem?_setSubmission {i j : Nat} {submission other : Submission}
    (h : (s.setSubmission i submission).submissions[j]? = some other) :
    (j = i ∧ other = submission) ∨ s.submissions[j]? = some other := by
  change (s.submissions.set i submission)[j]? = some other at h
  rw [List.getElem?_set] at h
  split_ifs at h with hij hlt
  · exact .inl ⟨hij.symm, (Option.some.inj h).symm⟩
  · exact .inr h

/-- A step of a submission that puts no item. -/
theorem Ok.submission_quiet (h : Ok s) (hquiet : Quiet s s') (hsame : s'.submissions = s.submissions)
    {i : Nat} {submission : Submission} {point : SubmissionPoint} (hi : s.submissions[i]? = some submission)
    (hin : point.isIn = true → submission.point.isIn = true) :
    Ok (s'.setSubmission i { submission with point }) := by
  refine h.quiet ⟨hquiet.lanes, hquiet.periodicAlive, hquiet.drainFailed, hquiet.stopPoint⟩
    fun j other hj hother => ?_
  rcases getElem?_setSubmission hj with ⟨rfl, rfl⟩ | hj
  · exact h.accepted j submission hi (hin hother)
  · rw [hsame] at hj
    exact h.accepted j other hj hother

/-- Putting an item that the stop has not given up on. -/
theorem Ok.put (h : Ok s) {i : Nat} {submission : Submission} (hi : s.submissions[i]? = some submission)
    (hinspected : submission.lane = .executionEvent → inspected s.stopPoint = false) :
    Ok ((s.setLane submission.lane
      { s.lanes submission.lane with
        queue := (s.lanes submission.lane).queue ++ [i]
        enqueued := (s.lanes submission.lane).enqueued ++ [i] }).setSubmission i
      { submission with point := .pressure }) := by
  set lane' : Lane :=
    { s.lanes submission.lane with
      queue := (s.lanes submission.lane).queue ++ [i]
      enqueued := (s.lanes submission.lane).enqueued ++ [i] } with hlane'
  have hlane := h.lanes submission.lane
  refine ⟨fun other => ?_, fun j other hj hin => ?_, h.stopped.mono rfl (fun thread hexited => ?_) fun _ => ?_⟩
  · show LaneOk s.drainFailed ((s.setLane submission.lane lane').lanes other)
    by_cases hother : other = submission.lane
    · rw [hother, setLane_self]
      refine ⟨?_, hlane.settled, hlane.received, hlane.delivered⟩
      show (s.lanes submission.lane).enqueued ++ [i] = _
      rw [hlane.order, List.append_assoc]
    · rw [setLane_other hother]
      exact h.lanes other
  · show j ∈ ((s.setLane submission.lane lane').lanes other.lane).enqueued
    rcases getElem?_setSubmission hj with ⟨rfl, rfl⟩ | hj
    · rw [setLane_self]
      exact List.mem_append_right _ (List.mem_singleton.mpr rfl)
    · have hmem := h.accepted j other hj hin
      by_cases hother : other.lane = submission.lane
      · rw [hother] at hmem ⊢
        rw [setLane_self]
        exact List.mem_append_left _ hmem
      · rw [setLane_other hother]
        exact hmem
  · cases thread with
    | periodic thread => exact hexited
    | delivery other =>
      rw [exited_delivery] at hexited ⊢
      show ((s.setLane submission.lane lane').lanes other).worker = .exited
      by_cases hother : other = submission.lane
      · rw [hother] at hexited ⊢
        rw [setLane_self]
        exact hexited
      · rw [setLane_other hother]
        exact hexited
  · refine ⟨id, fun hin hqueue => ?_⟩
    show ((s.setLane submission.lane lane').lanes .executionEvent).queue = []
    by_cases hother : submission.lane = .executionEvent
    · rw [hinspected hother] at hin
      cases hin
    · rw [setLane_other (Ne.symm hother)]
      exact hqueue

theorem Ok.submission (h : Ok s) {i : Nat} (hundisturbed : Undisturbed s (.submission i))
    (hstep : submissionStep cfg s i = some s') : Ok s' := by
  unfold submissionStep at hstep
  obtain ⟨submission, hi, hstep⟩ := Option.bind_eq_some_iff.mp hstep
  have hself : Quiet s s := ⟨fun _ => .refl _, fun _ => id, rfl, rfl⟩
  dsimp only at hstep
  cases hpoint : submission.point with
  | testStop =>
    rw [hpoint] at hstep
    cases hstep
    exact h.submission_quiet hself rfl hi fun hin => by split_ifs at hin <;> cases hin
  | accepts =>
    rw [hpoint] at hstep
    cases hstep
    exact h.submission_quiet hself rfl hi fun hin => by split_ifs at hin <;> cases hin
  | put =>
    rw [hpoint] at hstep
    dsimp only at hstep
    split_ifs at hstep with hfull
    · cases hstep
      refine h.submission_quiet (.setLane ?_) rfl hi fun hin => Bool.noConfusion hin
      exact ⟨rfl, rfl, rfl, rfl, rfl, rfl⟩
    · cases hstep
      refine h.put hi fun hlane => ?_
      rw [← Bool.not_eq_true]
      exact fun hinspected => hundisturbed ⟨by rw [hi, ← hlane, ← hpoint], hinspected⟩
  | pressure =>
    rw [hpoint] at hstep
    cases hstep
    refine h.submission_quiet (.setLane ?_) rfl hi fun _ => by rw [hpoint]; rfl
    exact ⟨rfl, rfl, rfl, rfl, rfl, rfl⟩
  | returned accepted =>
    rw [hpoint] at hstep
    cases hstep

/-! ### The stop -/

/-- The call of `stop` moves on, having found what it goes on with. -/
theorem Ok.goto (h : Ok s) {point : StopPoint} {stop : Bool} {deadline : Option Nat}
    (hstopped : StopOk { s with stopPoint := point }) :
    Ok { s with stop := stop, stopDeadline := deadline, stopPoint := point } :=
  ⟨h.lanes, h.accepted, hstopped⟩

theorem Ok.stopTurn (h : Ok s) (hstep : stopStep s = some s') : Ok s' := by
  have hstopped := h.stopped
  unfold StopOk at hstopped
  unfold stopStep at hstep
  dsimp only at hstep
  split at hstep <;> rename_i hpoint <;> rw [hpoint] at hstopped
  · cases hstep
  · cases hstep
    exact h.goto trivial
  · cases hstep
    refine h.goto ?_
    split_ifs
    · exact fun thread hthread => absurd (mem_threads thread) hthread
    · trivial
  · cases hstep
    exact h.goto fun thread hthread => absurd (mem_threads thread) hthread
  · split_ifs at hstep
    cases hstep
    exact h.goto trivial
  · cases hstep
    exact h.goto fun thread => hstopped thread List.not_mem_nil
  · cases hstep
    refine h.goto ?_
    split_ifs with hexited
    · rename_i head rest
      intro thread hthread
      by_cases hhead : thread = head
      · rw [hhead]
        exact hexited
      · exact hstopped thread fun hmem => (List.mem_cons.mp hmem).elim hhead hthread
    · exact fun hfalse => Bool.noConfusion hfalse
  · cases hstep
    refine h.goto ?_
    split_ifs with hdrain
    · exact fun hfalse => Bool.noConfusion hfalse
    · exact ⟨hstopped, Bool.not_eq_true _ ▸ hdrain, fun hin => Bool.noConfusion hin⟩
  · cases hstep
    exact h.goto fun _ => ⟨hstopped.1, hstopped.2.1, hstopped.2.2 rfl⟩
  · cases hstep
    refine h.goto ?_
    split_ifs with hempty
    · rename_i name rest
      refine ⟨hstopped.1, hstopped.2.1, fun hin => ?_⟩
      by_cases hname : name = .executionEvent
      · rw [← hname]
        exact List.isEmpty_iff.mp hempty
      · refine hstopped.2.2 ?_
        have hrest : LaneName.executionEvent ∉ rest := by simpa [inspected] using hin
        simp [inspected, Ne.symm hname, hrest]
    · exact fun hfalse => Bool.noConfusion hfalse
  · cases hstep

/-! ### Turns -/

theorem Ok.turn (h : Ok s) (turn : Turn) (hundisturbed : Undisturbed s turn) :
    Ok ((machine cfg).next s turn) := by
  show Ok ((turn? cfg s turn).getD s)
  cases hturn : turn? cfg s turn with
  | none => exact h
  | some s' =>
    show Ok s'
    cases turn with
    | call name =>
      cases hturn
      refine h.quiet ⟨fun _ => .refl _, fun _ => id, rfl, rfl⟩ fun i submission hi hin => ?_
      change (s.submissions ++ [(⟨name, firstPoint name⟩ : Submission)])[i]? = some submission at hi
      rw [List.getElem?_append] at hi
      split_ifs at hi
      · exact h.accepted i submission hi hin
      · -- a new call has put nothing yet
        rw [List.getElem?_singleton] at hi
        split_ifs at hi
        cases hi
        cases name <;> cases hin
    | submission i => exact h.submission hundisturbed hturn
    | worker name ok => exact h.worker (workerStep_effect hturn)
    | callStop cutoff =>
      change callStop s cutoff = some s' at hturn
      unfold callStop at hturn
      split at hturn
      · cases hturn
        exact h.goto trivial
      · cases hturn
    | stop => exact h.stopTurn hturn
    | watchdog name =>
      unfold turn? at hturn
      dsimp only at hturn
      split_ifs at hturn
      exact h.watchdog hturn
    | periodicExits thread =>
      unfold turn? at hturn
      dsimp only at hturn
      split_ifs at hturn
      cases hturn
      refine h.quiet ⟨fun _ => .refl _, fun other hother => ?_, rfl, rfl⟩ h.accepted
      show (if other = thread then false else s.periodicAlive other) = false
      split_ifs
      · rfl
      · exact hother
    | tick later =>
      cases hturn
      exact h.quiet ⟨fun _ => .refl _, fun _ => id, rfl, rfl⟩ h.accepted

/-- **No accepted work is dropped at shutdown**, unless it is put into its queue after `stop` has
found that queue empty; and each lane receives and delivers in the order of its queue. -/
theorem nothing_dropped (cfg : Config) (run : List Turn) (hrun : (machine cfg).Meets Undisturbed .start run) :
    let s := (machine cfg).after .start run
    (s.stopPoint = .returned true → ∀ i : Nat, s.submissions[i]? = some ⟨.executionEvent, .returned true⟩ →
      i ∈ (s.lanes .executionEvent).delivered) ∧
    ∀ name, (s.lanes name).received.Sublist (s.lanes name).enqueued ∧
      (s.lanes name).delivered.Sublist (s.lanes name).enqueued := by
  have hok : Ok ((machine cfg).after .start run) :=
    Machine.invariant_of_meets (fun s turn h hundisturbed => h.turn turn hundisturbed) Ok.start hrun
  intro s
  refine ⟨fun hstopped i hi => ?_, fun name => ?_⟩
  · have hstop := hok.stopped
    unfold StopOk at hstop
    rw [show ((machine cfg).after .start run).stopPoint = .returned true from hstopped] at hstop
    obtain ⟨hall, hdrain, hqueue⟩ := hstop rfl
    have hlane := hok.lanes .executionEvent
    have hexited : (s.lanes .executionEvent).worker = .exited := by
      simpa [Session.exited] using hall (.delivery .executionEvent)
    have hin := hok.accepted i _ hi rfl
    rw [hlane.order, hqueue, hexited, List.append_nil] at hin
    rcases hlane.settled i (by simpa [WorkerPoint.held] using hin) with hdelivered | hfailed
    · exact hdelivered
    · rw [hdrain] at hfailed
      cases hfailed
  · have hlane := hok.lanes name
    rw [hlane.order]
    exact ⟨hlane.received.trans (List.sublist_append_left _ _),
      (hlane.delivered.trans (List.sublist_append_left _ _)).trans (List.sublist_append_left _ _)⟩

/-! ### Every run -/

structure Kept (failed : Bool) (capacity : Nat) (lane : Lane) : Prop where
  items : LaneOk failed lane
  bounded : lane.queue.length ≤ capacity

/-- What a session keeps of a lane, whatever the stop does. -/
abbrev Keeps (cfg : Config) (name : LaneName) (s : Session) : Prop :=
  Kept s.drainFailed (cfg.capacity name) (s.lanes name)

theorem Kept.moves {failed failed' : Bool} {capacity : Nat} {lane lane' : Lane}
    (h : Kept failed capacity lane) (hfailed : failed = true → failed' = true)
    (hmoves : Moves failed' lane lane') : Kept failed' capacity lane' := by
  refine ⟨(h.items.mono hfailed).moves hmoves, le_trans ?_ h.bounded⟩
  cases hmoves with
  | takes item hqueue => simp [hqueue]
  | stays hqueue | receives _ hqueue | delivers _ hqueue | drops _ _ hqueue => rw [hqueue]

theorem Keeps.turn {turn : Turn} (h : Keeps cfg name s) (hturn : turn? cfg s turn = some s') :
    Keeps cfg name s' := by
  have quiet (hquiet : Quiet s s') : Keeps cfg name s' :=
    h.moves (hquiet.drainFailed.trans ·) (hquiet.lanes name).moves
  cases turn with
  | call | tick =>
    cases hturn
    exact h
  | periodicExits =>
    unfold turn? at hturn
    dsimp only at hturn
    split_ifs at hturn
    cases hturn
    exact h
  | callStop =>
    change callStop s _ = _ at hturn
    unfold callStop at hturn
    split at hturn <;> cases hturn
    exact h
  | stop =>
    change stopStep s = _ at hturn
    unfold stopStep at hturn
    dsimp only at hturn
    split at hturn <;> try split_ifs at hturn
    all_goals cases hturn
    all_goals exact h
  | watchdog =>
    unfold turn? watchdogStep at hturn
    dsimp only at hturn
    split_ifs at hturn
    split at hturn
    · cases hturn
    split_ifs at hturn
    cases hturn
    exact quiet (.fatal (.setLane ⟨rfl, rfl, rfl, rfl, rfl, rfl⟩))
  | worker other =>
    have heffect := workerStep_effect hturn
    by_cases hother : name = other
    · subst hother
      exact h.moves heffect.drain heffect.moves
    · have hsame : SameItems (s.lanes name) (s'.lanes name) := heffect.others name hother ▸ .refl _
      exact h.moves heffect.drain hsame.moves
  | submission i =>
    obtain ⟨submission, -, hturn⟩ := Option.bind_eq_some_iff.mp hturn
    dsimp only at hturn
    split at hturn
    · cases hturn
      exact h
    · cases hturn
      exact h
    · split_ifs at hturn with hfull <;> cases hturn <;>
        show Kept _ _ (if name = submission.lane then _ else _) <;> split_ifs with hname
      · exact hname ▸ h.moves id (.stays rfl rfl rfl rfl rfl rfl)
      · exact h
      · subst hname
        refine ⟨⟨?_, h.items.settled, h.items.received, h.items.delivered⟩, by simpa using hfull⟩
        rw [h.items.order, List.append_assoc]
      · exact h
    · cases hturn
      show Kept _ _ (if name = submission.lane then _ else _)
      split_ifs with hname
      · exact hname ▸ h.moves id (.stays rfl rfl rfl rfl rfl rfl)
      · exact h
    · cases hturn

end

/-! ## Runs -/

/-- One place in each queue, and three attempts. -/
def oneEach : Config where
  capacity _ := 1
  retryBudget := 3
  circuitResetSeconds := 5
  operationTimeoutSeconds := 15

/-- The stop looks at all threads and all queues. -/
def stopTurns : List Turn := List.replicate 25 .stop

/-- The worker of a lane finds the flag set and its queue empty. -/
def leaves (name : LaneName) : List Turn := [.worker name true, .worker name true]

/-- The periodic threads and the workers of the other lanes go. -/
def othersLeave : List Turn :=
  [.periodicExits .watchdog, .periodicExits .heartbeat, .periodicExits .commandPoll, .periodicExits .intentFetch] ++
    leaves .commandDelivery ++ leaves .commandAck ++ leaves .intentDelivery

/-- The item is put in time: its first delivery fails, the second one does not. -/
def timelyRun : List Turn :=
  [.call .executionEvent, .submission 0, .submission 0, .submission 0, .submission 0, .callStop 100, .stop] ++
    [.worker .executionEvent true, .worker .executionEvent true, .worker .executionEvent true,
     .worker .executionEvent true, .worker .executionEvent true, .worker .executionEvent true,
     .worker .executionEvent true, .worker .executionEvent false, .worker .executionEvent true,
     .worker .executionEvent true, .worker .executionEvent true, .worker .executionEvent true,
     .worker .executionEvent true, .worker .executionEvent true] ++
    othersLeave ++ leaves .executionEvent ++ stopTurns

/-- A stop that returns `True` after an item was delivered at the second attempt. -/
theorem nothing_dropped_timely :
    ((machine oneEach).after .start timelyRun).stopPoint = .returned true ∧
      0 ∈ (((machine oneEach).after .start timelyRun).lanes .executionEvent).delivered := by
  have hstopped : ((machine oneEach).after .start timelyRun).stopPoint = .returned true := by decide +kernel
  have hmeets : (machine oneEach).Meets Undisturbed .start timelyRun := by decide +kernel
  exact ⟨hstopped, (nothing_dropped oneEach timelyRun hmeets).1 hstopped 0 (by decide +kernel)⟩

/-- The flag is read before the stop, and the item put after it. -/
def lateRun : List Turn :=
  [.call .executionEvent, .submission 0, .submission 0, .callStop 100, .stop] ++ othersLeave ++
    leaves .executionEvent ++ stopTurns ++ [.submission 0, .submission 0]

/-- **An accepted item is dropped**: it is put after `stop` has looked at its queue. -/
theorem late_put_dropped : ¬∀ run : List Turn, let s := (machine oneEach).after .start run
    s.stopPoint = .returned true → ∀ i : Nat, s.submissions[i]? = some ⟨.executionEvent, .returned true⟩ →
      i ∈ (s.lanes .executionEvent).delivered := by
  intro h
  have hdropped := h lateRun (by decide +kernel) 0 (by decide +kernel)
  exact absurd hdropped (by decide +kernel)

end TraderBot.ControlPlaneSession
