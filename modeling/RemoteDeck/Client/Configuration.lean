import RemoteDeck.Client.Jobs
import RemoteDeck.Lib.Machine
import RemoteDeck.Model

/-! # The configuration of the client

    The bootstrap fence of `store.ts` and the part of the server's `dispatch`
    that it relies on, for one tab.  The server changes its configuration,
    raises its revision and emits `resync` under one lock, and answers a
    bootstrap under it.  Answers may arrive in any order.

    A mutation of the tab is named by the epoch that it begins.  The changes
    that the server has made are recorded beside its configuration, so that
    a snapshot says which mutations it has.
-/

namespace Client

/-! ### Configurations -/

structure Configuration where
  settings : AppSettings
  hosts : List HostProfile
  tunnels : List TunnelProfile
  deriving DecidableEq, Repr

/-- What a successful mutation returns. -/
inductive Reply where
  | saveHost (host : HostProfile)
  | deleteHost (hostId : Text)
  | importSshConfig (imported : List HostProfile)
  | saveTunnel (tunnel : TunnelProfile)
  | deleteTunnel (tunnelId : Text)
  | updateSettings (settings : AppSettings)
  deriving DecidableEq, Repr

/-- Replace the first host with the id of an imported one, or append it. -/
def mergeImported (hosts : List HostProfile) (host : HostProfile) : List HostProfile :=
  match hosts.findIdx? fun item => item.id = host.id with
  | some index => hosts.set index host
  | none => hosts ++ [host]

/-- How the tab applies the success of its own mutation. -/
def Configuration.apply (configuration : Configuration) : Reply → Configuration
  | .saveHost host =>
      { configuration with hosts := replaceById HostProfile.id configuration.hosts host }
  | .deleteHost hostId =>
      { configuration with
        hosts := configuration.hosts.filter fun host => host.id ≠ hostId
        tunnels := configuration.tunnels.filter fun tunnel => tunnel.host_id ≠ hostId }
  | .importSshConfig imported =>
      { configuration with hosts := imported.foldl mergeImported configuration.hosts }
  | .saveTunnel tunnel =>
      { configuration with tunnels := replaceById TunnelProfile.id configuration.tunnels tunnel }
  | .deleteTunnel tunnelId =>
      { configuration with
        tunnels := configuration.tunnels.filter fun tunnel => tunnel.id ≠ tunnelId }
  | .updateSettings settings => { configuration with settings := settings }

/-! ### The fence -/

structure ConfigMutationFence where
  epoch : Nat
  minimumRevision : Option Int
  deriving DecidableEq, Repr

def beginConfigMutation (currentRevision : Int) (currentEpoch : Nat) : ConfigMutationFence where
  epoch := currentEpoch + 1
  minimumRevision := if 0 ≤ currentRevision then some (currentRevision + 1) else none

def shouldApplyBootstrap (currentRevision incomingRevision : Int) (minimumRevision : Option Int) :
    Bool :=
  currentRevision ≤ incomingRevision && minimumRevision.all fun minimum => minimum ≤ incomingRevision

def shouldApplyConfigBootstrap (currentRevision : Int) (currentEpoch requestEpoch : Nat)
    (minimumRevision : Option Int) (incomingRevision : Int) : Bool :=
  currentEpoch = requestEpoch && shouldApplyBootstrap currentRevision incomingRevision minimumRevision

/-! ### One tab and the server -/

/-- A change of the server's configuration. -/
inductive Change where
  /-- The mutation that began this epoch of the tab. -/
  | own (epoch : Nat)
  | other
  deriving DecidableEq, Repr

/-- The configuration of the server, as it answers a bootstrap with it. -/
structure BootstrapPayload where
  configRevision : Nat
  configuration : Configuration
  /-- The changes that led to it. -/
  changes : List Change
  deriving DecidableEq, Repr

/-- A bootstrap that the tab has requested and not yet received. -/
structure Bootstrap where
  serial : Nat
  requestEpoch : Nat
  answer : Option BootstrapPayload
  deriving DecidableEq, Repr

inductive Outcome where
  /-- The server has not yet carried it out. -/
  | pending
  | succeeded (reply : Reply)
  | failed
  deriving DecidableEq, Repr

/-- A mutation that the tab has sent and not yet heard of. -/
structure Mutation where
  epoch : Nat
  outcome : Outcome
  deriving DecidableEq, Repr

/-- The fields of `AppStore` that the fence reads and writes. -/
structure Tab where
  configRevision : Int
  configEpoch : Nat
  minimumConfigRevision : Option Int
  configuration : Configuration
  deriving DecidableEq, Repr

structure Session where
  server : BootstrapPayload
  /-- `resync` events that are not yet delivered. -/
  resyncs : Nat
  tab : Tab
  awaited : List Bootstrap
  mutations : List Mutation
  /-- How many bootstraps the tab has requested. -/
  requested : Nat
  /-- The last of them arrived and was not applied. -/
  dropped : Bool
  /-- The mutations whose success the tab has applied. -/
  applied : List Nat
  deriving DecidableEq, Repr

/-- Whether the fence lets a snapshot through. -/
def Tab.admits (tab : Tab) (requestEpoch : Nat) (incomingRevision : Nat) : Bool :=
  shouldApplyConfigBootstrap tab.configRevision tab.configEpoch requestEpoch
    tab.minimumConfigRevision incomingRevision

/-- `refreshConfiguration` up to its `await`. -/
def Session.request (s : Session) : Session :=
  { s with
    awaited := s.awaited ++ [⟨s.requested, s.tab.configEpoch, none⟩]
    requested := s.requested + 1
    dropped := false }

/-- `refreshConfiguration` after its `await`. -/
def Session.receive (s : Session) (bootstrap : Bootstrap) (payload : BootstrapPayload) : Session :=
  let rest := s.awaited.filter fun other => other.serial ≠ bootstrap.serial
  if s.tab.admits bootstrap.requestEpoch payload.configRevision then
    { s with
      tab := { s.tab with
               configRevision := payload.configRevision
               minimumConfigRevision := none
               configuration := payload.configuration }
      awaited := rest }
  else { s with awaited := rest, dropped := s.dropped || bootstrap.serial + 1 = s.requested }

/-- `beginConfigurationMutation`, and the request that follows it. -/
def Session.begin_mutation (s : Session) : Session :=
  let fence := beginConfigMutation s.tab.configRevision s.tab.configEpoch
  { s with
    tab := { s.tab with configEpoch := fence.epoch, minimumConfigRevision := fence.minimumRevision }
    mutations := s.mutations ++ [⟨fence.epoch, .pending⟩] }

/-- `clearConfigurationFence`. -/
def Tab.clear_fence (tab : Tab) (epoch : Nat) : Tab :=
  if tab.configEpoch = epoch then { tab with minimumConfigRevision := none } else tab

/-- The server changes its configuration. -/
def Session.change (s : Session) (after : Configuration) (change : Change) : Session :=
  { s with
    server := ⟨s.server.configRevision + 1, after, s.server.changes ++ [change]⟩
    resyncs := s.resyncs + 1 }

/-- The server settles a pending mutation. -/
def settle (epoch : Nat) (outcome : Outcome) (mutations : List Mutation) : List Mutation :=
  mutations.map fun mutation =>
    if mutation.epoch = epoch then { mutation with outcome := outcome } else mutation

/-- The server answers a bootstrap. -/
def answer (serial : Nat) (payload : BootstrapPayload) (awaited : List Bootstrap) : List Bootstrap :=
  awaited.map fun bootstrap =>
    if bootstrap.serial = serial then { bootstrap with answer := some payload } else bootstrap

inductive SessionLabel where
  /-- The tab asks for a bootstrap without an event, as after a reconnection. -/
  | bootstrap
  /-- A `resync` event is delivered. -/
  | resync
  | answer (serial : Nat)
  | receive (serial : Nat)
  /-- A bootstrap fails on its way. -/
  | lose (serial : Nat)
  | begin_mutation
  | succeed (epoch : Nat) (reply : Reply) (after : Configuration)
  | refuse (epoch : Nat)
  /-- Another tab, or an operation outside the fence, changes the
      configuration. -/
  | change (after : Configuration)
  | success (epoch : Nat)
  /-- A mutation fails for the tab: it was refused, or its response is lost. -/
  | failure (epoch : Nat)

def Session.next (s : Session) : SessionLabel → Option Session
  | .bootstrap => some s.request
  | .resync => if s.resyncs = 0 then none else some { s with resyncs := s.resyncs - 1 }.request
  | .answer serial =>
      if s.awaited.any fun bootstrap => bootstrap.serial = serial && bootstrap.answer.isNone then
        some { s with awaited := Client.answer serial s.server s.awaited }
      else none
  | .receive serial =>
      (s.awaited.find? fun bootstrap => bootstrap.serial = serial).bind fun bootstrap =>
        bootstrap.answer.map fun payload => s.receive bootstrap payload
  | .lose serial =>
      some { s with awaited := s.awaited.filter fun bootstrap => bootstrap.serial ≠ serial }
  | .begin_mutation => some s.begin_mutation
  | .succeed epoch reply after =>
      if ⟨epoch, .pending⟩ ∈ s.mutations then
        some { s.change after (.own epoch) with
               mutations := settle epoch (.succeeded reply) s.mutations }
      else none
  | .refuse epoch =>
      if ⟨epoch, .pending⟩ ∈ s.mutations then
        some { s with mutations := settle epoch .failed s.mutations }
      else none
  | .change after => some (s.change after .other)
  | .success epoch =>
      (s.mutations.find? fun mutation => mutation.epoch = epoch).bind fun mutation =>
        match mutation.outcome with
        | .succeeded reply =>
            some { s with
                   tab := { s.tab with configuration := s.tab.configuration.apply reply }
                   mutations := s.mutations.filter fun other => other.epoch ≠ epoch
                   applied := s.applied ++ [epoch] }.request
        | .pending | .failed => none
  | .failure epoch =>
      if s.mutations.any fun mutation => mutation.epoch = epoch then
        some { s with
               tab := s.tab.clear_fence epoch
               mutations := s.mutations.filter fun other => other.epoch ≠ epoch }
      else none

/-- A tab that opens at a revision of the server.  Only the changes from then
    on are recorded. -/
def Session.start (configRevision : Nat) (configuration initial : Configuration) : Session where
  server := ⟨configRevision, configuration, []⟩
  resyncs := 0
  tab := ⟨-1, 0, none, initial⟩
  awaited := [⟨0, 0, none⟩]
  mutations := []
  requested := 1
  dropped := false
  applied := []

/-- One tab, from its first bootstrap on. -/
def session : Machine Session SessionLabel where
  init := fun s => ∃ configRevision configuration initial, s = .start configRevision configuration initial
  next := Session.next

end Client
