import TraderBot.NodeCommands.Handler

/-! # Commands that are delivered again

The record that a command is accepted is there before it is executed, and any
record answers a delivery. So a command is executed once at most; and it is lost
where a crash comes between that record and the one of its outcome. -/
namespace TraderBot.NodeCommands
open TraderBot.Lib TraderBot.Lib.Json
open TraderBot.Lib.Component (Rules)

section
variable {P : Effect → Prop} {α β : Type}

theorem only_attempt {e : Effect} {h : e.Answer = Except String α} (he : P e) :
    (attempt e h).run.Only P := by
  have hcast : ∀ {γ δ : Type} (hγ : γ = δ) (p : Code γ), p.Only P → (hγ ▸ p : Code δ).Only P := by
    intro γ δ hγ p hp
    subst hγ
    exact hp
  exact hcast h (Routine.perform e) (Routine.only_perform he)

theorem only_tried {x : Tried α} {f : α → Tried β} (hx : x.run.Only P) (hf : ∀ a, (f a).run.Only P) :
    (x >>= f).run.Only P := by
  refine Routine.only_bind hx fun a => ?_
  cases a with
  | ok a => exact hf a
  | error text => trivial

end

/-- **A command is executed by effects of its execution alone.** -/
theorem execute_only (str : Value → String) (command : NodeCommand) :
    (execute str command).run.Only fun e => e.executes = true := by
  have hclose : ∀ positions, (closeEach positions).run.Only fun e => e.executes = true := by
    intro positions
    induction positions with
    | nil => trivial
    | cons position positions ih =>
      exact only_tried (only_attempt rfl) fun _ => only_tried ih fun _ => trivial
  unfold execute
  cases command.type with
  | halt => exact only_tried (only_attempt rfl) fun _ => trivial
  | resume => exact only_tried (only_attempt rfl) fun _ => trivial
  | setReducing => exact only_tried (only_attempt rfl) fun _ => trivial
  | cancelAll =>
    refine only_tried (by trivial) fun ids => ?_
    refine only_tried (only_attempt rfl) fun _ => ?_
    refine only_tried (only_attempt rfl) fun _ => ?_
    exact only_tried (only_attempt rfl) fun _ => trivial
  | closeAll =>
    refine only_tried (by trivial) fun ids => ?_
    refine only_tried (only_attempt rfl) fun _ => ?_
    refine only_tried (only_attempt rfl) fun _ => ?_
    refine only_tried (only_attempt rfl) fun _ => ?_
    refine only_tried (only_attempt rfl) fun positions => ?_
    refine only_tried (hclose positions) fun _ => ?_
    exact only_tried (only_attempt rfl) fun _ => trivial
  | refreshEvidence => trivial

theorem perform_executes {e : Effect} (he : e.executes = true) (x : Reading) (s : Records) :
    (perform e x s).2 = s := by
  cases e with
  | get | save | ack => cases he
  | tradingState | applyOperatorState | cancelAll | waitForNoWorkingOrders | openPositions
  | closePositionReduceOnly | waitUntilFlat => rfl

theorem perform_save (record : CommandStateRecord) (x : Reading) (s : Records) :
    perform (.save record) x s = match x.raises with
      | some _ => (none, s)
      | none => (some (), s.set record.commandId record) := rfl

/-! ## One delivery -/

section Delivery
variable (str : Value → String) (command : NodeCommand) (start : Records)

/-- A delivery of a command: it is executed only where its record is that it was
accepted, and the records there were when it began stay. -/
def rules : Rules Records Effect where
  C _ _ := True
  A e s := e.executes = true →
    ∃ r, s.get? command.commandId = some r ∧ r.status = .accepted
  I s := ∀ id r, start.get? id = some r → s.get? id = some r
  R := Eq
  refl _ := rfl
  trans := Eq.trans

/-- What a delivery comes back with: the record there was, or one of the outcome. -/
def Answers (record : CommandStateRecord) (s : Records) : Prop :=
  s.get? command.commandId = some record ∧
    match start.get? command.commandId with
    | some existing => record = existing
    | none => record.status ≠ .accepted

variable {str command start}

variable (K : Records → Prop) {record : CommandStateRecord}

theorem stable : (rules command start).Stable K := by
  rintro s t - - rfl hk
  exact hk

theorem records_stay {s : Records} (hs : (rules command start).I s)
    (hnone : start.get? command.commandId = none) (hid : record.commandId = command.commandId) :
    (rules command start).I (s.set record.commandId record) := by
  intro id r hr
  rw [Dict.get?_set, if_neg]
  · exact hs id r hr
  · rintro rfl
    rw [hid, hnone] at hr
    cases hr

theorem ack_triple {status : CommandAckStatus} {result : Option (Dict Value)}
    {error : Option String} :
    (rules command start).Triple (processor str) K (ack command.commandId status result error)
      fun _ => K := by
  refine Rules.triple_of_only (P := fun e => e = .ack command.commandId status result error) (stable K)
    ?_ ?_ (Routine.only_perform rfl)
  · rintro e s rfl - - - hexecutes
    cases hexecutes
  · rintro e s x rfl hs hk -
    exact ⟨hs, hk⟩

theorem save_triple {K : Records → Prop} (hnone : start.get? command.commandId = none)
    (hid : record.commandId = command.commandId) :
    (rules command start).Triple (processor str) K (save record)
      fun _ s => s.get? command.commandId = some record := by
  show (rules command start).Triple (processor str) K
    (Routine.perform (Effect.save record) >>= fun a => .done a) _
  refine Rules.triple_call (L := fun _ s => s.get? command.commandId = some record) (stable K) ?_ ?_ ?_ ?_
  · intro s _ _ _ hexecutes
    cases hexecutes
  · intro s x hs _ _
    show (rules command start).I (perform (.save record) x s).2
    rw [perform_save]
    cases x.raises with
    | some text => exact hs
    | none => exact records_stay hs hnone hid
  · intro s x a _ _ _ ha
    change (perform (.save record) x s).1 = some a at ha
    show (perform (.save record) x s).2.get? command.commandId = some record
    rw [perform_save] at ha ⊢
    cases hraises : x.raises with
    | some text => simp [hraises] at ha
    | none => rw [← hid]; exact Dict.get?_set_self
  · exact fun a => fun _ _ hl => hl

theorem handleNew_triple (hnone : start.get? command.commandId = none) :
    (rules command start).Triple (processor str) (fun _ => True) (handleNew str command)
      (Answers command start) := by
  unfold handleNew
  refine (ack_triple fun _ => True).bind fun _ => ?_
  refine (save_triple hnone rfl).bind fun _ => ?_
  refine Rules.Triple.bind (Rules.triple_of_only (stable _) (fun e s he _ hk _ _ => ⟨_, hk, rfl⟩)
    (fun e s x he hs hk _ => ?_) (execute_only str command)) fun ended => ?_
  · have hleft : ((processor str).perform e x s).2 = s := perform_executes he x s
    rw [hleft]
    exact ⟨hs, hk⟩
  have hid : (outcome command ended).commandId = command.commandId := by cases ended <;> rfl
  have hended : (outcome command ended).status ≠ .accepted := by
    cases ended <;> exact nofun
  refine (save_triple hnone hid).bind fun _ => ?_
  refine (ack_triple _).bind fun _ => ?_
  intro s _ hk
  refine ⟨hk, ?_⟩
  rw [hnone]
  exact hended

theorem handle_triple : (rules command start).Triple (processor str) (fun s => s = start)
    (handle str command) (Answers command start) := by
  refine Rules.triple_call (e := Effect.get command.commandId)
    (L := fun existing s => existing = start.get? command.commandId ∧ s = start) (stable _) ?_ ?_ ?_ ?_
  · intro s _ _ _ hexecutes
    cases hexecutes
  · exact fun s x hs _ _ => hs
  · rintro s x a - rfl - ha
    cases ha
    exact ⟨rfl, rfl⟩
  · intro existing
    cases existing with
    | none =>
      intro s hs hk
      exact handleNew_triple hk.1.symm s hs trivial
    | some existing =>
      refine (ack_triple _).bind fun _ => ?_
      rintro s - ⟨hexisting, rfl⟩
      refine ⟨hexisting.symm, ?_⟩
      rw [← hexisting]

end Delivery

/-! ## Deliveries -/

section Deliveries
variable (str : Value → String)

/-- What is asked of a delivery: its command is not executed where an outcome of it is
on record, and where the call comes back an outcome is. -/
structure Handled (s : Records) (d : Delivery) : Prop where
  once : ∀ ew ∈ (processor str).performed (handle str d.command) d.readings s,
    ew.1.executes = true → ∀ r, ew.2.get? d.command.commandId = some r → r.status = .accepted
  reported : ∀ record, (deliveries str).answer s d = .returned record →
    ∃ r, ((deliveries str).next s d).get? d.command.commandId = some r ∧ r.status ≠ .accepted

/-- An earlier attempt left the record that the command was accepted, and this one gets
to acknowledge it. -/
def Stranded (s : Records) (d : Delivery) : Prop :=
  (s.get? d.command.commandId).map (·.status) = some .accepted ∧
    d.readings[1]?.any (fun x => x.raises.isNone) = true

instance (s : Records) (d : Delivery) : Decidable (Stranded s d) :=
  inferInstanceAs (Decidable (_ ∧ _))

variable {s : Records} {d : Delivery}

/-- A record there is answers the delivery, and nothing else is done. -/
theorem step_existing {existing : CommandStateRecord}
    (hs : s.get? d.command.commandId = some existing) :
    (deliveries str).step s d = match d.readings[1]? with
      | some y => if y.raises.isSome then (.raised, s) else (.returned existing, s)
      | none => (.cut, s) := by
  have hget : ∀ x, perform (.get d.command.commandId) x s = (some (some existing), s) := by
    intro x
    show (some (s.get? d.command.commandId), s) = _
    rw [hs]
  show (processor str).finish (handle str d.command) d.readings s = _
  rcases d.readings with _ | ⟨x, rest⟩
  · rfl
  refine (Component.finish_answered (c := processor str) (hget x)).trans ?_
  rcases rest with _ | ⟨⟨_ | text, state, result, positions⟩, rest⟩ <;> rfl

/-- What a delivery does, where no earlier attempt left a record of acceptance. -/
theorem handled_of_not_stranded (h : ¬Stranded s d) : Handled str s d := by
  have hsafe : (rules d.command s).Safe (processor str) (Answers d.command s) (handle str d.command) s :=
    handle_triple s (fun _ _ hr => hr) rfl
  obtain ⟨hperformed, -, hreturned⟩ :=
    Rules.finish_safe (fun _ _ => trivial) (fun _ _ hr => hr) hsafe d.readings
  refine ⟨fun ew hew hexecutes r hr => ?_, fun record hrecord => ?_⟩
  · obtain ⟨r', hr', haccepted⟩ := hperformed ew hew hexecutes
    rw [hr] at hr'
    cases hr'
    exact haccepted
  · obtain ⟨hget, hanswers⟩ := hreturned record hrecord
    refine ⟨record, hget, fun haccepted => ?_⟩
    cases hstart : s.get? d.command.commandId with
    | none =>
      rw [hstart] at hanswers
      exact hanswers haccepted
    | some existing =>
      rw [hstart] at hanswers
      subst hanswers
      refine h ⟨by rw [hstart]; exact congrArg some haccepted, ?_⟩
      unfold Machine.answer at hrecord
      rw [step_existing str hstart] at hrecord
      cases hy : d.readings[1]? with
      | none => rw [hy] at hrecord; cases hrecord
      | some y =>
        rw [hy] at hrecord
        cases hraises : y.raises with
        | none => show y.raises.isNone = true; rw [hraises]; rfl
        | some text => simp [hraises] at hrecord

/-- A record of acceptance that an earlier attempt left is what the command ends with. -/
theorem not_handled_of_stranded (h : Stranded s d) : ¬Handled str s d := by
  obtain ⟨haccepted, hacknowledged⟩ := h
  obtain ⟨existing, hexisting, hstatus⟩ := Option.map_eq_some_iff.mp haccepted
  cases hy : d.readings[1]? with
  | none => rw [hy] at hacknowledged; cases hacknowledged
  | some y =>
    rw [hy] at hacknowledged
    have hraises : y.raises.isSome = false := by simpa using hacknowledged
    have hstep : (deliveries str).step s d = (.returned existing, s) := by
      rw [step_existing str hexisting, hy]
      simp [hraises]
    intro hhandled
    obtain ⟨r, hr, hended⟩ := hhandled.reported existing (congrArg Prod.fst hstep)
    have hleft : (deliveries str).next s d = s := congrArg Prod.snd hstep
    rw [hleft, hexisting] at hr
    cases hr
    exact hended hstatus

/-- **Commands delivered again are handled** exactly in the runs in which none comes
upon the record of acceptance that an earlier attempt left. -/
theorem deliveries_handled_iff (s : Records) (ds : List Delivery) :
    (deliveries str).Meets (Handled str) s ds ↔
      (deliveries str).Meets (fun s d => ¬Stranded s d) s ds :=
  Machine.meets_congr fun _ _ =>
    ⟨fun hhandled hstranded => not_handled_of_stranded str hstranded hhandled,
      handled_of_not_stranded str⟩

end Deliveries

def haltCommand : NodeCommand := { commandId := "c1", type := .halt }

/-- The process crashes once the command is on record as accepted. -/
def crashedHalt : Delivery := { command := haltCommand, readings := [{}, {}, {}] }

/-- It is delivered again, and the acknowledgement goes through. -/
def redeliveredHalt : Delivery := { command := haltCommand, readings := [{}, {}] }

/-- A halt that a crash cut off is never executed: delivered again, it comes back with
the record that it was accepted. -/
theorem halt_lost_after_crash : ¬(deliveries fun _ => "").Meets (Handled fun _ => "") Dict.empty
    [crashedHalt, redeliveredHalt] := by
  rintro ⟨-, hredelivered, -⟩
  exact not_handled_of_stranded (fun _ => "") ⟨by decide +kernel, by decide +kernel⟩ hredelivered

end TraderBot.NodeCommands
