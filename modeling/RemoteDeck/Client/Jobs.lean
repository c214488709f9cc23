import RemoteDeck.Lib.Newest
import RemoteDeck.Lib.Text

/-! # The jobs of the client

    How `store.ts` keeps the transfers and the command jobs that it hears of.
    Snapshots come one by one in events and answers, and in lists after a
    reconnection, in any order.

    The two kinds of job are kept by the same code with other names:
    `replaceJob` and `mergeJobs` are that code, and each function of the
    source is one of them applied to its own values.

    `Date.parse` is a parameter; `none` stands for `NaN`.
-/

namespace Client

/-! ### Jobs -/

inductive JobState where
  | queued | running | cancelling | completed | failed | cancelled
  deriving DecidableEq, Repr

inductive TransferDirection where
  | upload | download
  deriving DecidableEq, Repr

inductive CommandRisk where
  | L0 | L1 | L2
  deriving DecidableEq, Repr

structure TransferJob where
  id : Text
  revision : Nat
  hostId : Text
  direction : TransferDirection
  source : Text
  destination : Text
  state : JobState
  bytesTransferred : Nat
  totalBytes : Option Nat
  error : Option Text
  createdAt : Text
  updatedAt : Text
  deriving DecidableEq, Repr

structure CommandJob where
  id : Text
  revision : Nat
  commandId : Option Text
  hostId : Text
  name : Text
  command : Text
  risk : CommandRisk
  state : JobState
  stdout : Text
  stderr : Text
  exitCode : Option Int
  error : Option Text
  startedAt : Option Text
  finishedAt : Option Text
  deriving DecidableEq, Repr

def JobState.is_terminal : JobState → Bool
  | .completed | .cancelled | .failed => true
  | .queued | .running | .cancelling => false

def commandIsTerminal (job : CommandJob) : Bool := job.state.is_terminal

/-- The length of a string in UTF-16 code units. -/
def js_length (t : Text) : Nat := t.foldl (fun n c => n + if c.val < 0x10000 then 1 else 2) 0

/-- What a job adds to the retained output. -/
def CommandJob.output (job : CommandJob) : Nat :=
  js_length job.stdout + js_length job.stderr + (job.error.map js_length).getD 0

/-! ### Which snapshot is newer -/

def commandProgress (job : CommandJob) : Nat :=
  let rank := match job.state with
    | .queued => 0
    | .running => 1
    | .cancelling => 2
    | .completed | .failed | .cancelled => 3
  rank * 10000000 + job.output

/-- `a >= b` on numbers that may be `NaN`. -/
def at_least : Option Int → Option Int → Bool
  | some a, some b => a ≥ b
  | _, _ => false

def isNewerTransfer (parse : Text → Option Int) (previous incoming : TransferJob) : Bool :=
  if incoming.revision ≠ previous.revision then incoming.revision > previous.revision
  else at_least (parse incoming.updatedAt) (parse previous.updatedAt)

def isNewerCommand (previous incoming : CommandJob) : Bool :=
  if incoming.revision ≠ previous.revision then incoming.revision > previous.revision
  else commandProgress incoming ≥ commandProgress previous

/-! ### Bounds -/

def MAX_RETAINED_TASKS : Nat := 512
def MAX_RETAINED_COMMAND_OUTPUT_BYTES : Nat := 16 * 1024 * 1024

section Jobs

variable {Job : Type} (id : Job → Text) (isNewer : Job → Job → Bool) (retain : List Job → List Job)

/-- The loop of `retainBoundedTasks`; a round removes one item, so that it
    has no more rounds than there are items. -/
def retain_bounded (isTerminal : Job → Bool) : Nat → List Job → List Job
  | 0, retained => retained
  | rounds + 1, retained =>
      if MAX_RETAINED_TASKS < retained.length ∧ retained.any isTerminal then
        retain_bounded isTerminal rounds (retained.eraseP isTerminal)
      else retained

def retainBoundedTasks (isTerminal : Job → Bool) (items : List Job) : List Job :=
  retain_bounded isTerminal items.length items

def total_output (items : List CommandJob) : Nat :=
  items.foldl (fun total job => total + job.output) 0

/-- The loop of `retainCommandOutputBudget`, with its count of `bytes`. -/
def retain_output : Nat → Nat → List CommandJob → List CommandJob
  | 0, _, retained => retained
  | rounds + 1, bytes, retained =>
      if MAX_RETAINED_COMMAND_OUTPUT_BYTES < bytes then
        match retained.find? commandIsTerminal with
        | none => retained
        | some removed =>
            retain_output rounds (bytes - removed.output) (retained.eraseP commandIsTerminal)
      else retained

def retainCommandOutputBudget (items : List CommandJob) : List CommandJob :=
  retain_output items.length (total_output items) items

/-! ### Replacing and merging -/

def replaceById (items : List Job) (replacement : Job) : List Job :=
  if items.any fun item => id item = id replacement then
    items.map fun item => if id item = id replacement then replacement else item
  else items ++ [replacement]

/-- `replaceTransfer` and `replaceCommandJob`. -/
def replaceJob (items : List Job) (replacement : Job) : List Job :=
  match items.find? fun item => id item = id replacement with
  | some previous =>
      if !isNewer previous replacement then items else retain (replaceById id items replacement)
  | none => retain (replaceById id items replacement)

/-- `Map.set`: the value of a key is replaced in its place, a new key goes
    to the end. -/
def map_set (entries : List (Text × Job)) (key : Text) (value : Job) : List (Text × Job) :=
  if entries.any fun entry => entry.1 = key then
    entries.map fun entry => if entry.1 = key then (key, value) else entry
  else entries ++ [(key, value)]

/-- `new Map`, from a list of entries. -/
def new_map (entries : List (Text × Job)) : List (Text × Job) :=
  entries.foldl (fun merged entry => map_set merged entry.1 entry.2) []

def merge_job (merged : List (Text × Job)) (job : Job) : List (Text × Job) :=
  match merged.lookup (id job) with
  | some previous => if isNewer previous job then map_set merged (id job) job else merged
  | none => map_set merged (id job) job

/-- `mergeTransferSnapshots` and `mergeCommandSnapshots`. -/
def mergeJobs (current incoming : List Job) : List Job :=
  let merged := new_map (current.map fun job => (id job, job))
  retain ((incoming.foldl (merge_job id isNewer) merged).map Prod.snd)

/-- What a client gets: one snapshot, or a list of them. -/
inductive Update (Job : Type) where
  | one (job : Job)
  | list (jobs : List Job)
  deriving DecidableEq, Repr

def Update.jobs : Update Job → List Job
  | .one job => [job]
  | .list jobs => jobs

/-- The snapshots of some updates, in their order. -/
def received (updates : List (Update Job)) : List Job := updates.flatMap Update.jobs

def apply_update (items : List Job) : Update Job → List Job
  | .one job => replaceJob id isNewer retain items job
  | .list jobs => mergeJobs id isNewer retain items jobs

end Jobs

/-! ### The actions of the store -/

section Transfers

variable (parse : Text → Option Int)

def retain_transfers : List TransferJob → List TransferJob :=
  retainBoundedTasks fun job => job.state.is_terminal

def replaceTransfer : List TransferJob → TransferJob → List TransferJob :=
  replaceJob TransferJob.id (isNewerTransfer parse) retain_transfers

def mergeTransferSnapshots : List TransferJob → List TransferJob → List TransferJob :=
  mergeJobs TransferJob.id (isNewerTransfer parse) retain_transfers

/-- The actions `applyTransfer` and `setTransfers`. -/
def apply_transfers (transfers : List TransferJob) : Update TransferJob → List TransferJob
  | .one job => replaceTransfer parse transfers job
  | .list jobs => mergeTransferSnapshots parse transfers jobs

/-- The transfers of a client, which starts with none. -/
def transfers_after (updates : List (Update TransferJob)) : List TransferJob :=
  updates.foldl (apply_transfers parse) []

end Transfers

def retain_commands (items : List CommandJob) : List CommandJob :=
  retainCommandOutputBudget (retainBoundedTasks commandIsTerminal items)

def replaceCommandJob : List CommandJob → CommandJob → List CommandJob :=
  replaceJob CommandJob.id isNewerCommand retain_commands

def mergeCommandSnapshots : List CommandJob → List CommandJob → List CommandJob :=
  mergeJobs CommandJob.id isNewerCommand retain_commands

/-- The actions `applyCommandJob` and `setCommandJobs`. -/
def apply_commands (jobs : List CommandJob) : Update CommandJob → List CommandJob
  | .one job => replaceCommandJob jobs job
  | .list incoming => mergeCommandSnapshots jobs incoming

/-- The command jobs of a client, which starts with none. -/
def commands_after (updates : List (Update CommandJob)) : List CommandJob :=
  updates.foldl apply_commands []

end Client
