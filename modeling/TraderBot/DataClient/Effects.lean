import TraderBot.DataClient.Model
import TraderBot.Inbox.Lifecycle
import TraderBot.Lib.Returns

/-! # What the effects of the client do

What an answer of the inbox says about the file it leaves, what each effect
leaves alone, and what others can do between two effects. -/
namespace TraderBot.DataClient
open TraderBot.Lib TraderBot.Lib.Component
open TraderBot.Inbox (IntentExecutionRecord IntentExecutionIdentity recordAt recordKey FileRecordsWf)

/-! ## What the inbox answers -/

section Inbox
variable {inbox : Inbox.JsonIntentExecutionInbox} {identity : IntentExecutionIdentity}
  {file : Inbox.File}

/-- What a read of the inbox that came back has found. -/
theorem get_ok {found : Option IntentExecutionRecord}
    (h : Inbox.get inbox identity file = .ok found) :
    ∃ normalized, identity.normalized inbox.unicode = .ok normalized ∧
      found = (recordAt file (recordKey normalized)).filter (·.identity = normalized) := by
  unfold Inbox.get at h
  cases hn : identity.normalized inbox.unicode with
  | error e => simp [hn] at h
  | ok normalized =>
    refine ⟨normalized, rfl, ?_⟩
    simp only [hn, Inbox.readLocked] at h
    cases hload : Inbox.loadPayload inbox file with
    | error e => simp [hload] at h
    | ok p =>
      simp only [hload] at h
      cases file with
      | none =>
        cases hload
        cases h
        rfl
      | some q =>
        rw [Inbox.loadPayload_some hload] at h
        cases h
        rfl

variable {u : Text.Unicode} {normalized : IntentExecutionIdentity} {key : String}
  {r : IntentExecutionRecord}

end Inbox

/-! ## What an effect changes -/

/-- What others can do to the world: move its inbox. -/
def Interferes (config : Config) (s t : World) : Prop :=
  ∃ ops, t = { s with inboxFile := (Inbox.machine config.inbox).after s.inboxFile ops }

namespace Interferes
variable {config : Config} {s t u : World}

theorem refl (s : World) : Interferes config s s := ⟨[], rfl⟩

theorem trans (h : Interferes config s t) (k : Interferes config t u) : Interferes config s u := by
  obtain ⟨ops, rfl⟩ := h
  obtain ⟨ops', rfl⟩ := k
  exact ⟨ops ++ ops', by simp⟩

theorem acks (h : Interferes config s t) : t.acks = s.acks := by
  obtain ⟨ops, rfl⟩ := h
  rfl

end Interferes

section Effects
variable {config : Config}

/-- An effect moves the inbox by one of its calls, if at all. -/
theorem act_inboxFile (config : Config) (e : Effect) (x : Reading) (s : World) :
    (act config e x s).2.inboxFile = s.inboxFile ∨
      ∃ op, (act config e x s).2.inboxFile = (Inbox.machine config.inbox).next s.inboxFile op := by
  cases e with
  | inboxRegister identity payload =>
    exact .inr ⟨.registerReceived identity (some payload) x.utcNow, rfl⟩
  | inboxReject identity reason => exact .inr ⟨.markRejected identity reason x.utcNow, rfl⟩
  | inboxPending =>
    left
    simp only [act]
    cases Inbox.pending config.inbox s.inboxFile <;> rfl
  | _ => exact .inl rfl

/-- An effect is done, or leaves the world alone. -/
theorem perform_world (config : Config) (e : Effect) (x : Reading) (s : World) :
    (perform config e x s).2 = s ∨ (perform config e x s).2 = (act config e x s).2 := by
  unfold perform
  cases x.outcome with
  | notDone => exact .inl rfl
  | returned => exact .inr rfl
  | doneButRaised => exact .inr rfl

variable (e : Effect) (x : Reading)

theorem act_recordsWf {s : World} (h : FileRecordsWf s.inboxFile) :
    FileRecordsWf (act config e x s).2.inboxFile := by
  rcases act_inboxFile config e x s with hsame | ⟨op, hop⟩
  · rw [hsame]
    exact h
  · rw [hop]
    exact Inbox.next_recordsWf config.inbox s.inboxFile op h

theorem perform_recordsWf {s : World} (h : FileRecordsWf s.inboxFile) :
    FileRecordsWf (perform config e x s).2.inboxFile := by
  rcases perform_world config e x s with hsame | hact
  · rw [hsame]
    exact h
  · rw [hact]
    exact act_recordsWf e x h

/-- An effect that came back was done. -/
theorem perform_some {e : Effect} {x : Reading} {s : World} {a : e.Answer}
    (h : (perform config e x s).1 = some a) : perform config e x s = act config e x s := by
  unfold perform at h ⊢
  cases hx : x.outcome with
  | notDone => simp [hx] at h
  | returned => rfl
  | doneButRaised => simp [hx] at h

theorem act_turn (turn : Turn) (x : Reading) (s : World) :
    act config (.turn turn) x s = (some (), { s with turn := some turn, modeRead := none }) := rfl

theorem act_inboxGet (identity : Inbox.IntentExecutionIdentity) (x : Reading) (s : World) :
    act config (.inboxGet identity) x s =
      ((Inbox.get config.inbox identity s.inboxFile).toOption, s) := rfl

/-- Everything but an acknowledgement. -/
def Effect.noAck : Effect → Prop
  | .ack _ _ _ _ => False
  | _ => True

/-- Everything but a publication. -/
def Effect.noPublish : Effect → Prop
  | .publish _ => False
  | _ => True

theorem perform_acks {e : Effect} (he : e.noAck) (x : Reading) (s : World) :
    (perform config e x s).2.acks = s.acks := by
  rcases perform_world config e x s with hsame | hact
  · rw [hsame]
  · rw [hact]
    cases e with
    | ack about intentId status detail => exact he.elim
    | inboxPending =>
      simp only [act]
      cases Inbox.pending config.inbox s.inboxFile <;> rfl
    | _ => rfl

end Effects

end TraderBot.DataClient
