import TraderBot.Lib.Postgres
import TraderBot.Lib.ReadCommitted

/-! # Operator commands

A command asks a set of nodes for an acknowledgement each and is done when all of
them have answered. `record_ack` and `expire_timeouts` change acknowledgements and
roll the status of their commands up from all rows (`_recompute`), each in one
transaction. Creation times, the type, scope and reason of a command are left
out, nothing here reads them. -/
namespace TraderBot.Commands
open TraderBot.Lib

/-! ## Rows -/

/-- `ck_command_node_acks_status`. -/
inductive AckStatus where
  | pending
  | acked
  | accepted
  | running
  | completed
  | failed
  deriving DecidableEq, Repr

/-- `ck_operator_commands_status`; `partially` is `'partial'`. -/
inductive CommandStatus where
  | pending
  | accepted
  | running
  | acknowledged
  | partially
  | failed
  | completed
  deriving DecidableEq, Repr

structure AckKey where
  commandId : String
  nodeId : String
  deriving DecidableEq, Repr

structure AckRow where
  key : AckKey
  status : AckStatus := .pending
  detail : Option String := none
  ackAt : Option Nat := none
  expiresAt : Option Nat
  deriving DecidableEq, Repr

structure CommandRow where
  commandId : String
  status : CommandStatus := .pending
  completedAt : Option Nat := none
  deriving DecidableEq, Repr

/-- The two tables; an acknowledgement refers to a command. -/
structure Tables where
  acks : Table AckRow.key
  commands : Table CommandRow.commandId
  references : ∀ row ∈ acks.rows, row.key.commandId ∈ commands.rows.map CommandRow.commandId

/-- `UPDATE command_node_acks`. -/
def Tables.updateAcks (t : Tables) (p : AckRow → Bool) (f : AckRow → AckRow)
    (hf : ∀ r, (f r).key = r.key) : Tables where
  acks := t.acks.update p f hf
  commands := t.commands
  references := by
    intro row hrow
    obtain ⟨r, hr, rfl⟩ := List.mem_map.mp hrow
    have hkey : (if p r then f r else r).key = r.key := by split_ifs <;> simp [hf]
    rw [hkey]
    exact t.references r hr

/-- `UPDATE operator_commands`. -/
def Tables.updateCommands (t : Tables) (p : CommandRow → Bool) (f : CommandRow → CommandRow)
    (hf : ∀ r, (f r).commandId = r.commandId) : Tables where
  acks := t.acks
  commands := t.commands.update p f hf
  references := by
    intro row hrow
    have hkeys : (t.commands.update p f hf).rows.map CommandRow.commandId =
        t.commands.rows.map CommandRow.commandId := by
      show (t.commands.rows.map fun r => if p r then f r else r).map _ = _
      rw [List.map_map]
      refine List.map_congr_left fun r _ => ?_
      by_cases h : p r <;> simp [h, hf]
    rw [hkeys]
    exact t.references row hrow

/-! ## The roll-up -/

/-- `SELECT status FROM command_node_acks WHERE command_id = ...`. -/
def Tables.statuses (t : Tables) (commandId : String) : List AckStatus :=
  (t.acks.rows.filter fun r => r.key.commandId = commandId).map AckRow.status

/-- The status `_recompute` derives. -/
def recompute (statuses : List AckStatus) : CommandStatus :=
  if statuses = [] ∨ statuses.all (· == .acked) then .completed
  else if statuses.all (· == .failed) then .failed
  else if statuses.any (· == .pending) then
    if statuses.any (· == .acked) then .acknowledged else .pending
  else .partially

def terminalStatuses : List CommandStatus := [.completed, .partially, .failed]

/-- The row `_recompute` writes. -/
def CommandRow.rolledUp (row : CommandRow) (status : CommandStatus) (now : Nat) : CommandRow :=
  { row with
    status
    completedAt := if status ∈ terminalStatuses ∧ row.completedAt = none then some now
      else row.completedAt }

def Tables.setStatus (t : Tables) (commandId : String) (status : CommandStatus) (now : Nat) : Tables :=
  t.updateCommands (fun r => r.commandId = commandId) (fun r => r.rolledUp status now) fun _ => rfl

/-! ## Issuing a command -/

/-- The rows `issue_command` inserts: a command without targets is completed. A
command or a target that is there already is refused. -/
def Tables.issue (t : Tables) (commandId : String) (targetNodes : List String) (now expiresAt : Nat) :
    Option Tables :=
  let command : CommandRow :=
    if targetNodes = [] then { commandId, status := .completed, completedAt := some now }
    else { commandId }
  if h : commandId ∉ t.commands.rows.map CommandRow.commandId ∧ targetNodes.Nodup then
    some
      { acks := ⟨t.acks.rows ++ targetNodes.map fun nodeId =>
          { key := ⟨commandId, nodeId⟩, expiresAt := some expiresAt }, by
            rw [List.map_append, List.map_map]
            refine List.Nodup.append t.acks.unique ?_ ?_
            · exact h.2.map fun a b hab => (AckKey.mk.injEq _ _ _ _).mp hab |>.2
            · intro k hk hk'
              obtain ⟨row, hrow, rfl⟩ := List.mem_map.mp hk
              obtain ⟨nodeId, -, hkey⟩ := List.mem_map.mp hk'
              have hid : row.key.commandId = commandId := (congrArg AckKey.commandId hkey).symm
              exact h.1 (hid ▸ t.references row hrow)⟩
        commands := ⟨t.commands.rows ++ [command], by
          have hid : command.commandId = commandId := by
            show (if targetNodes = [] then _ else _ : CommandRow).commandId = commandId
            split_ifs <;> rfl
          rw [List.map_append, List.map_singleton, hid]
          exact List.Nodup.append t.commands.unique (List.nodup_singleton _) (by simpa using h.1)⟩
        references := by
          intro row hrow
          have hid : command.commandId = commandId := by
            show (if targetNodes = [] then _ else _ : CommandRow).commandId = commandId
            split_ifs <;> rfl
          rw [List.map_append, List.map_singleton, hid, List.mem_append]
          rcases List.mem_append.mp hrow with hrow | hrow
          · exact .inl (t.references row hrow)
          · obtain ⟨nodeId, -, rfl⟩ := List.mem_map.mp hrow
            exact .inr (List.mem_singleton_self _) }
  else none

/-! ## The transactions -/

inductive Request where
  | recordAck (key : AckKey) (status : AckStatus) (detail : Option String) (now : Nat)
  | expireTimeouts (now : Nat)
  deriving DecidableEq, Repr

def Request.now : Request → Nat
  | .recordAck _ _ _ now => now
  | .expireTimeouts now => now

/-- Row locks. -/
inductive Lock where
  | ack (key : AckKey)
  | command (commandId : String)
  deriving DecidableEq, Repr

/-- Where a transaction is: before its own update, with commands left to roll up
and what it read for those it has, before the write of a roll-up, or raising. -/
inductive Point where
  | update
  | rollUp (todo : List String) (rolled : List (String × List AckStatus))
  | write (commandId : String) (statuses : List AckStatus) (todo : List String)
      (rolled : List (String × List AckStatus))
  | raise
  deriving DecidableEq, Repr

/-- The acknowledgement a node gives. -/
def AckRow.answered (row : AckRow) (status : AckStatus) (detail : Option String) (now : Nat) : AckRow :=
  { row with status, detail, ackAt := some now }

/-- `status='pending' AND expires_at IS NOT NULL AND expires_at <= now()`. -/
def AckRow.timedOut (now : Nat) (row : AckRow) : Bool :=
  row.status == .pending && row.expiresAt.any fun at' => decide (at' ≤ now)

def AckRow.expired (row : AckRow) (now : Nat) : AckRow :=
  { row with status := .failed, detail := row.detail.or (some "ack timeout"), ackAt := some now }

/-- The rows the timeout takes. -/
def Tables.timedOutKeys (t : Tables) (now : Nat) : List AckKey :=
  (t.acks.rows.filter (AckRow.timedOut now)).map AckRow.key

/-- `sorted({command_id})`. -/
def commandsOf (keys : List AckKey) : List String :=
  (keys.map AckKey.commandId).dedup.insertionSort (· ≤ ·)

def Request.action (r : Request) : Point → Action Tables Lock Point
  | .update =>
    match r with
    | .recordAck key status detail now =>
      .statement (fun view => if view.acks.has key then [.ack key] else [])
        (fun _ t => t.updateAcks (fun row => row.key = key) (fun row => row.answered status detail now)
          fun _ => rfl)
        (fun view => if view.acks.has key then .rollUp [key.commandId] [] else .raise)
    | .expireTimeouts now =>
      .statement (fun view => (view.timedOutKeys now).map .ack)
        (fun view t => t.updateAcks (fun row => decide (row.key ∈ view.timedOutKeys now))
          (fun row => row.expired now) fun _ => rfl)
        (fun view => .rollUp (commandsOf (view.timedOutKeys now)) [])
  | .rollUp [] _ => .commit
  | .rollUp (commandId :: todo) rolled =>
    .read fun view => .write commandId (view.statuses commandId) todo rolled
  | .write commandId statuses todo rolled =>
    .statement (fun _ => [.command commandId])
      (fun _ t => t.setStatus commandId (recompute statuses) r.now)
      (fun _ => .rollUp todo (rolled ++ [(commandId, statuses)]))
  | .raise => .rollback

/-- An answer other than these is refused before anything is done. -/
def Request.start : Request → Point
  | .recordAck _ status _ _ => if status = .acked ∨ status = .failed then .update else .raise
  | .expireTimeouts _ => .update

/-- A family of requests as transactions. -/
def code {ι : Type} (requests : ι → Request) : Code ι Tables Lock Point where
  start i := (requests i).start
  action i := (requests i).action

end TraderBot.Commands
