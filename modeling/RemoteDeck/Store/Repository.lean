import Mathlib.Data.Finset.Basic
import RemoteDeck.Lib.Machine
import RemoteDeck.Store.Mutations

/-! # The repository

    `AppRepository` of `store.rs` as a state machine.  Every operation that
    changes the persisted state clones it, changes the clone, writes it and
    only then assigns it (`commit`); all of them run under the locks of
    `state` and `deleting_hosts`, so one operation is one step.

    What an operation draws from outside is in `Env`: identifiers, the time,
    the outcome of the write and the iteration order of a hash map.
-/

namespace Store

structure Repository where
  state : PersistedState
  deleting_hosts : Finset Text

/-- What one operation draws from outside the repository. -/
structure Env where
  /-- The `n`-th `Uuid::new_v4` of the operation. -/
  new_uuid : Nat → Uuid
  /-- The `n`-th `Utc::now` of the operation. -/
  now : Nat → Timestamp
  /-- The outcome of writing a valid state. -/
  write : AppResult Unit
  /-- The order in which the values of a hash map are visited. -/
  hash_order : List Text → List Text
  hash_order_perm : ∀ ids, (hash_order ids).Perm ids

def Repository.default : Repository where
  state := .default
  deleting_hosts := ∅

/-! ### Reading -/

def Repository.host (repo : Repository) (host_id : Text) : AppResult HostProfile :=
  if host_id ∈ repo.deleting_hosts then
    .error (.State ("host ".toList ++ host_id ++ " is being deleted".toList))
  else (find_host repo.state.hosts host_id).ok_or (missing_host host_id)

def Repository.resolve_jump_host (repo : Repository) (host : HostProfile) :
    AppResult (Option HostProfile) := do
  let jump ← resolve_proxy_jump repo.state.hosts host
  if jump.any fun jump => jump.id ∈ repo.deleting_hosts then
    .error (.State "ProxyJump host is being deleted".toList)
  else .ok jump

def Repository.tunnel (repo : Repository) (tunnel_id : Text) : AppResult TunnelProfile :=
  (repo.state.tunnels.find? fun tunnel => tunnel.id = tunnel_id).ok_or
    (.NotFound ("tunnel ".toList ++ tunnel_id))

def Repository.command (repo : Repository) (command_id : Text) : AppResult CommandPreset :=
  (repo.state.command_presets.find? fun command => command.id = command_id).ok_or
    (.NotFound ("command preset ".toList ++ command_id))

/-! ### Committing -/

/-- `persist_locked`, that is `write_state`: validation, then the disk. -/
def persist_locked (env : Env) (state : PersistedState) : AppResult Unit := do
  validate_persisted_state state
  env.write

/-- Change a clone of the state, persist it, and assign it last. -/
def Repository.commit {α : Type} (repo : Repository) (env : Env)
    (change : PersistedState → AppResult (PersistedState × α)) : Repository × AppResult α :=
  match change repo.state with
  | .error e => (repo, .error e)
  | .ok (state, value) =>
      match persist_locked env state with
      | .error e => (repo, .error e)
      | .ok () => ({ repo with state := state }, .ok value)

/-! ### Hosts -/

/-- Fail when the jump of a saved profile is being deleted. -/
def ensure_jump_kept (deleting_hosts : Finset Text) (hosts : List HostProfile)
    (profile : HostProfile) : AppResult Unit := do
  if (← resolve_proxy_jump hosts profile).any fun jump => jump.id ∈ deleting_hosts then
    .error (.State "cannot use a ProxyJump host while it is being deleted".toList)
  else .ok ()

def Repository.save_host (repo : Repository) (env : Env) (draft : HostDraft) :
    Repository × AppResult HostProfile :=
  if draft.id.any fun host_id => host_id ∈ repo.deleting_hosts then
    (repo, .error (.State "cannot update a host while it is being deleted".toList))
  else
    repo.commit env fun state => do
      let (state, profile) ← apply_host_update (env.new_uuid 0) (env.now 0) state draft
      ensure_jump_kept repo.deleting_hosts state.hosts profile
      .ok (state, profile)

def import_with_id (what : String) : AppError :=
  .Validation ("imported ".toList ++ what.toList ++ " must not specify destination ids".toList)

/-- Apply the drafts of an import in order, the first as the `k`-th of the
    operation; returns the ids of the new hosts. -/
def apply_host_drafts (env : Env) : Nat → PersistedState → List HostDraft →
    AppResult (PersistedState × List Text)
  | _, state, [] => .ok (state, [])
  | k, state, draft :: drafts =>
      if draft.id.isSome then .error (import_with_id "hosts")
      else do
        let (state, profile) ← apply_host_draft (env.new_uuid k) (env.now k) state draft
        let (state, ids) ← apply_host_drafts env (k + 1) state drafts
        .ok (state, profile.id :: ids)

def normalize_proxy_jumps (hosts : List HostProfile) : List Text → AppResult (List HostProfile)
  | [] => .ok hosts
  | host_id :: ids => do
      let hosts ← normalize_proxy_jump_for hosts host_id
      normalize_proxy_jumps hosts ids

def validate_proxy_jump_roles (hosts : List HostProfile) : List Text → AppResult Unit
  | [] => .ok ()
  | host_id :: ids => do
      validate_proxy_jump_role hosts host_id
      validate_proxy_jump_roles hosts ids

/-- The two passes over imported hosts once all of them are present. -/
def settle_proxy_jumps (ids : List Text) (state : PersistedState) : AppResult PersistedState := do
  let hosts ← normalize_proxy_jumps state.hosts ids
  validate_proxy_jump_roles hosts ids
  .ok { state with hosts := hosts }

def Repository.import_hosts (repo : Repository) (env : Env) (drafts : List HostDraft) :
    Repository × AppResult (List HostProfile) :=
  if drafts.isEmpty then (repo, .ok [])
  else if repo.deleting_hosts.Nonempty then
    (repo, .error (.State "cannot import hosts while a host is being deleted".toList))
  else
    repo.commit env fun state => do
      let (state, ids) ← apply_host_drafts env 0 state drafts
      let state ← settle_proxy_jumps ids state
      .ok (state, ids.filterMap (find_host state.hosts))

def Repository.begin_host_deletion (repo : Repository) (host_id : Text) :
    Repository × AppResult Unit :=
  if host_id ∈ repo.deleting_hosts then
    (repo, .error (.State ("host ".toList ++ host_id ++ " is already being deleted".toList)))
  else
    match validate_host_deletion_state repo.state host_id with
    | .error e => (repo, .error e)
    | .ok () => ({ repo with deleting_hosts := insert host_id repo.deleting_hosts }, .ok ())

/-- Remove a host together with its tunnels and its commands. -/
def remove_host (host_id : Text) (state : PersistedState) : AppResult PersistedState := do
  validate_host_deletion_state state host_id
  let hosts := state.hosts.filter fun host => host.id ≠ host_id
  if state.hosts.length = hosts.length then .error (missing_host host_id)
  else
    .ok { state with
          hosts := hosts
          tunnels := state.tunnels.filter fun tunnel => tunnel.host_id ≠ host_id
          command_presets := state.command_presets.filter fun command =>
            command.host_id ≠ some host_id }

def Repository.delete_host_locked (repo : Repository) (env : Env) (host_id : Text) :
    Repository × AppResult Unit :=
  repo.commit env fun state => do
    let state ← remove_host host_id state
    .ok (state, ())

/-- The reservation is released whether or not the deletion succeeds. -/
def Repository.finish_host_deletion (repo : Repository) (env : Env) (host_id : Text) :
    Repository × AppResult Unit :=
  if host_id ∉ repo.deleting_hosts then
    (repo, .error (.State ("host ".toList ++ host_id ++ " deletion was not prepared".toList)))
  else
    let (repo, result) := repo.delete_host_locked env host_id
    ({ repo with deleting_hosts := repo.deleting_hosts.erase host_id }, result)

def Repository.abort_host_deletion (repo : Repository) (host_id : Text) : Repository :=
  { repo with deleting_hosts := repo.deleting_hosts.erase host_id }

/-! ### Tunnels, commands, settings -/

def Repository.save_tunnel (repo : Repository) (env : Env) (draft : TunnelDraft) :
    Repository × AppResult TunnelProfile :=
  if draft.host_id ∈ repo.deleting_hosts then
    (repo, .error (.State "cannot save a tunnel for a host being deleted".toList))
  else
    repo.commit env fun state => apply_tunnel_draft (env.new_uuid 0) (env.now 0) state draft

def Repository.delete_tunnel (repo : Repository) (env : Env) (tunnel_id : Text) :
    Repository × AppResult Unit :=
  repo.commit env fun state =>
    let tunnels := state.tunnels.filter fun tunnel => tunnel.id ≠ tunnel_id
    if state.tunnels.length = tunnels.length then
      .error (.NotFound ("tunnel ".toList ++ tunnel_id))
    else .ok ({ state with tunnels := tunnels }, ())

def Repository.save_command (repo : Repository) (env : Env) (draft : CommandPresetDraft) :
    Repository × AppResult CommandPreset :=
  if draft.host_id.any fun host_id => host_id ∈ repo.deleting_hosts then
    (repo, .error (.State "cannot save a command for a host being deleted".toList))
  else
    repo.commit env fun state => apply_command_draft (env.new_uuid 0) (env.now 0) state draft

def Repository.delete_command_for_host (repo : Repository) (env : Env)
    (command_id host_id : Text) : Repository × AppResult Unit :=
  if host_id ∈ repo.deleting_hosts then
    (repo, .error (.State "cannot change commands while their host is being deleted".toList))
  else
    repo.commit env fun state =>
      if !state.hosts.any fun host => host.id = host_id then .error (missing_host host_id)
      else do
        let command ← (state.command_presets.find? fun command => command.id = command_id).ok_or
          (.NotFound ("command preset ".toList ++ command_id))
        if command.host_id.any fun owner => owner ≠ host_id then
          .error (.State "command preset belongs to a different selected host".toList)
        else
          .ok ({ state with command_presets :=
                   state.command_presets.filter fun command => command.id ≠ command_id }, ())

def Repository.update_settings (repo : Repository) (env : Env) (patch : SettingsPatch) :
    Repository × AppResult AppSettings :=
  repo.commit env fun state => do
    let settings ← apply_settings_patch state.settings patch
    .ok ({ state with settings := settings }, settings)

/-! ### Batches -/

inductive ImportHostReference where
  | Imported (source_id : Text)
  | Existing (host_id : Text)
  deriving DecidableEq, Repr

structure ImportBatchHost where
  source_id : Text
  draft : HostDraft
  deriving DecidableEq, Repr

structure ImportBatchTunnel where
  host : ImportHostReference
  draft : TunnelDraft
  deriving DecidableEq, Repr

structure ImportBatchCommand where
  host : Option ImportHostReference
  draft : CommandPresetDraft
  deriving DecidableEq, Repr

structure ImportBatch where
  source_hash : Text
  hosts : List ImportBatchHost
  tunnels : List ImportBatchTunnel
  commands : List ImportBatchCommand
  settings : Option SettingsPatch
  deriving DecidableEq, Repr

structure ImportBatchResult where
  duplicate : Bool
  imported_hosts : Nat
  imported_tunnels : Nat
  imported_commands : Nat
  settings_imported : Bool
  deriving DecidableEq, Repr

def validate_import_source_id (source_id : Text) : AppResult Unit :=
  if source_id.isEmpty || source_id.len > 512 || source_id.any Text.is_control then
    .error (.Validation "import source host id is invalid".toList)
  else .ok ()

def validate_import_hash (source_hash : Text) : AppResult Unit :=
  if !is_import_hash source_hash then .error (.Validation "source hash is invalid".toList)
  else .ok ()

/-- `imported` is the map from source ids to the ids of the new hosts. -/
def resolve_import_host (imported : List (Text × Text)) (existing_host_ids : List Text) :
    ImportHostReference → AppResult Text
  | .Imported source_id =>
      (imported.lookup source_id).ok_or
        (.Validation ("import references missing source host ".toList ++ source_id))
  | .Existing host_id =>
      if host_id ∈ existing_host_ids then .ok host_id
      else .error
        (.Validation ("import references missing destination host ".toList ++ host_id))

def apply_batch_hosts (env : Env) : Nat → PersistedState → List (Text × Text) →
    List ImportBatchHost → AppResult (PersistedState × List (Text × Text))
  | _, state, imported, [] => .ok (state, imported)
  | k, state, imported, planned :: hosts => do
      validate_import_source_id planned.source_id
      if (imported.lookup planned.source_id).isSome then
        .error (.Validation ("import source host id '".toList ++ planned.source_id ++
          "' is duplicated".toList))
      else if planned.draft.id.isSome then .error (import_with_id "hosts")
      else do
        let (state, profile) ← apply_host_draft (env.new_uuid k) (env.now k) state planned.draft
        apply_batch_hosts env (k + 1) state ((planned.source_id, profile.id) :: imported) hosts

def apply_batch_tunnels (env : Env) (resolve : ImportHostReference → AppResult Text) :
    Nat → PersistedState → List ImportBatchTunnel → AppResult PersistedState
  | _, state, [] => .ok state
  | k, state, planned :: tunnels =>
      if planned.draft.id.isSome then .error (import_with_id "tunnels")
      else do
        let host_id ← resolve planned.host
        let (state, _) ← apply_tunnel_draft (env.new_uuid k) (env.now k) state
          { planned.draft with host_id := host_id }
        apply_batch_tunnels env resolve (k + 1) state tunnels

/-- Resolve the owner of an imported command, if it has one. -/
def resolve_owner (resolve : ImportHostReference → AppResult Text) :
    Option ImportHostReference → AppResult (Option Text)
  | none => .ok none
  | some host => do
      let host_id ← resolve host
      .ok (some host_id)

def apply_batch_commands (env : Env) (resolve : ImportHostReference → AppResult Text) :
    Nat → PersistedState → List ImportBatchCommand → AppResult PersistedState
  | _, state, [] => .ok state
  | k, state, planned :: commands =>
      if planned.draft.id.isSome then .error (import_with_id "command presets")
      else do
        let host_id ← resolve_owner resolve planned.host
        let (state, _) ← apply_command_draft (env.new_uuid k) (env.now k) state
          { planned.draft with host_id := host_id }
        apply_batch_commands env resolve (k + 1) state commands

def apply_batch_settings (settings : AppSettings) : Option SettingsPatch → AppResult AppSettings
  | none => .ok settings
  | some patch => apply_settings_patch settings patch

/-- The change that a batch makes to the clone of the state. -/
def apply_batch (env : Env) (batch : ImportBatch) (state : PersistedState) :
    AppResult (PersistedState × ImportBatchResult) := do
  let existing_host_ids := state.hosts.map HostProfile.id
  let (state, imported) ← apply_batch_hosts env 0 state [] batch.hosts
  let state ← settle_proxy_jumps (env.hash_order (imported.map Prod.snd)) state
  let resolve := resolve_import_host imported existing_host_ids
  let state ← apply_batch_tunnels env resolve batch.hosts.length state batch.tunnels
  let state ← apply_batch_commands env resolve (batch.hosts.length + batch.tunnels.length) state
    batch.commands
  let settings ← apply_batch_settings state.settings batch.settings
  .ok
    ({ state with
       settings := settings
       imported_source_hashes :=
         state.imported_source_hashes ++ [batch.source_hash.to_ascii_lowercase] },
      { duplicate := false
        imported_hosts := batch.hosts.length
        imported_tunnels := batch.tunnels.length
        imported_commands := batch.commands.length
        settings_imported := batch.settings.isSome })

def Repository.import_batch (repo : Repository) (env : Env) (batch : ImportBatch) :
    Repository × AppResult ImportBatchResult :=
  match validate_import_hash batch.source_hash with
  | .error e => (repo, .error e)
  | .ok () =>
      if repo.deleting_hosts.Nonempty then
        (repo, .error (.State "cannot import while a host is being deleted".toList))
      else if repo.state.imported_source_hashes.any fun hash =>
          hash.eq_ignore_ascii_case batch.source_hash.to_ascii_lowercase then
        (repo, .ok { duplicate := true, imported_hosts := 0, imported_tunnels := 0,
                     imported_commands := 0, settings_imported := false })
      else if batch.hosts.isEmpty && batch.tunnels.isEmpty && batch.commands.isEmpty &&
          batch.settings.isNone then
        (repo, .error (.Validation "import batch contains no selected records".toList))
      else repo.commit env (apply_batch env batch)

/-! ### The machine -/

inductive Operation where
  | save_host (draft : HostDraft)
  | import_hosts (drafts : List HostDraft)
  | import_batch (batch : ImportBatch)
  | begin_host_deletion (host_id : Text)
  | finish_host_deletion (host_id : Text)
  | abort_host_deletion (host_id : Text)
  | save_tunnel (draft : TunnelDraft)
  | delete_tunnel (tunnel_id : Text)
  | save_command (draft : CommandPresetDraft)
  | delete_command_for_host (command_id host_id : Text)
  | update_settings (patch : SettingsPatch)

/-- Run one operation; its result is kept only as success or error. -/
def Repository.run (repo : Repository) (env : Env) : Operation → Repository × AppResult Unit
  | .save_host draft => (repo.save_host env draft).map id fun r => r.map fun _ => ()
  | .import_hosts drafts => (repo.import_hosts env drafts).map id fun r => r.map fun _ => ()
  | .import_batch batch => (repo.import_batch env batch).map id fun r => r.map fun _ => ()
  | .begin_host_deletion host_id => repo.begin_host_deletion host_id
  | .finish_host_deletion host_id => repo.finish_host_deletion env host_id
  | .abort_host_deletion host_id => (repo.abort_host_deletion host_id, .ok ())
  | .save_tunnel draft => (repo.save_tunnel env draft).map id fun r => r.map fun _ => ()
  | .delete_tunnel tunnel_id => repo.delete_tunnel env tunnel_id
  | .save_command draft => (repo.save_command env draft).map id fun r => r.map fun _ => ()
  | .delete_command_for_host command_id host_id =>
      repo.delete_command_for_host env command_id host_id
  | .update_settings patch => (repo.update_settings env patch).map id fun r => r.map fun _ => ()

/-- The repository as a machine that starts in the default state. -/
def repository : Machine Repository (Env × Operation) where
  init := fun repo => repo = .default
  next := fun repo label => some (repo.run label.1 label.2).1

end Store
