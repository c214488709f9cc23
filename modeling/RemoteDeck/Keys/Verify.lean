import RemoteDeck.Keys.Deploy
import RemoteDeck.Lib.Traced
import RemoteDeck.Ssh.Arguments

/-! # Verifying a deployed key

    `deploy_key` of `key_service.rs`: it runs the script of `Keys/Deploy` on
    the host, connects again with a copy of the profile that names the key,
    and then may make the key the default of the host.

    This file defines:
    - `World`: files, repositories and runtimes as the call finds them
    - `Server`: what answers the runs of `ssh`
    - `deploy_key`, `run_command`, `test_connection`
    - `Verifies`: a success and a save come after a connection that offered
      the key alone
    - `Deployable`: only the server can still make a call fail

    The copy keeps the authentication method of the host, and only
    private-key authentication offers the file (`deploy_verifies_iff`).
    The times of the runs and the cut of long outputs are left out.
-/

namespace Keys

def KeyUtilityError.to_string : KeyUtilityError → Text
  | .InvalidPublicKey => "invalid OpenSSH public-key entry".toList
  | .InvalidEd25519Blob => "public key is not a valid ssh-ed25519 key blob".toList
  | .InvalidBase64 => "invalid base64 public-key payload".toList

/-! ### The world of a call -/

structure KeyDeployRequest where
  host_id : Text
  private_key_path : Text
  make_default : Bool

structure KeyOperationResult where
  success : Bool
  message : Text
  private_key_path : Option Text
  public_key_path : Option Text
  fingerprint : Option Text

/-- What a call finds.  The repository and the options of `ssh` may change
    between its steps. -/
structure World where
  is_file : Text → Bool
  read : Text → AppResult (List UInt8)
  sha256 : List UInt8 → List UInt8
  hosts : Store.Repository
  command_runtime : Ssh.SshRuntime
  test_runtime : Ssh.SshRuntime
  saved : Store.Repository
  env : Store.Env

/-- A run of a program, for some seconds at most. -/
structure Run where
  program : Text
  args : List Text
  seconds : Nat

structure ProcessOutput where
  exit_code : Option Int
  stdout : Text
  stderr : Text

/-- Without the time that the test took. -/
structure ConnectionTestResult where
  success : Bool
  server_line : Option Text
  error : Option Text

inductive Event where
  | ran (run : Run) (answer : AppResult ProcessOutput)
  | saved (draft : HostDraft) (answer : AppResult HostProfile)

/-- What a run comes to, after all that was done before. -/
abbrev Server := List Event → Run → AppResult ProcessOutput

abbrev Deploying (α : Type) := Traced Event AppError α

/-! ### Files -/

/-- The limit of `key_service.rs`. -/
def MAX_PUBLIC_KEY_FILE_BYTES : Nat := 64 * 1024

def validate_local_path (value : Text) : AppResult Unit :=
  if value.trim.isEmpty || 32767 < value.len || value.contains '\x00' then
    .error (.Validation "local path is invalid".toList)
  else .ok ()

def public_key_path (path : Text) : Text := path ++ ".pub".toList

namespace World

variable (world : World)

def read_bounded_utf8 (path : Text) (limit : Nat) : AppResult Text := do
  let bytes ← world.read path
  if limit < bytes.length then
    .error (.Validation (path ++ " exceeds the ".toList ++ limit.text ++ "-byte safety limit".toList))
  else (Text.from_utf8 bytes).ok_or (.Validation (path ++ " is not valid UTF-8".toList))

def ed25519_sha256_fingerprint (line : Text) : Except KeyUtilityError Text := do
  let parsed ← (parse_authorized_key line).ok_or .InvalidPublicKey
  if parsed.algorithm ≠ SSH_ED25519 then .error .InvalidEd25519Blob
  else
    let blob ← validate_ed25519_payload parsed.public_key_base64
    .ok ("SHA256:".toList ++ encode_base64_no_padding (world.sha256 blob))

/-! ### Steps -/

/-- What is known before anything is run. -/
structure Prepared where
  canonical : Text
  command : Text
  host : HostProfile

def prepare (request : KeyDeployRequest) : AppResult Prepared := do
  validate_local_path request.private_key_path
  let path := request.private_key_path
  if !world.is_file path || !world.is_file (public_key_path path) then
    .error (.NotFound "private key and matching .pub file are required".toList)
  else
    let content ← world.read_bounded_utf8 (public_key_path path) MAX_PUBLIC_KEY_FILE_BYTES
    let canonical ← (canonical_ed25519_public_key content).mapError fun e => .Validation e.to_string
    let parsed ← (parse_authorized_key canonical).ok_or (.Validation "public key is invalid".toList)
    let command := deploy_command (material_of parsed.algorithm parsed.public_key_base64) canonical
    let host ← world.hosts.host request.host_id
    .ok { canonical := canonical, command := command, host := host }

/-- The run of `run_command`, without a directory. -/
def command_run (host : HostProfile) (command : Text) : AppResult Run := do
  let line ← Ssh.remote_line command none
  let (program, args) ← world.command_runtime.remote_command_spec host line true
  .ok { program := program, args := args, seconds := 3600 }

def TEST_COMMAND : Text := "printf '__REMOTEDECK_OK__\\n'; uname -srm 2>/dev/null || true".toList

def OK_LINE : Text := "__REMOTEDECK_OK__".toList

/-- The run of `test_connection`. -/
def test_run (host : HostProfile) : AppResult Run := do
  let args ← world.test_runtime.base_args host true
  let program ← world.test_runtime.ssh
  .ok
    { program := program
      args := args ++ [Ssh.destination host, TEST_COMMAND]
      seconds := host.advanced.connect_timeout_seconds + 5 }

def run_output (server : Server) (run : Run) : Deploying ProcessOutput :=
  Traced.ask (fun trace => server trace run) (Event.ran run)

def nonempty_or (value fallback : Text) : Text := if value.trim.isEmpty then fallback else value

def run_command (server : Server) (host : HostProfile) (command : Text) : Deploying ProcessOutput := do
  let run ← Traced.lift (world.command_run host command)
  run_output server run

/-- The test succeeded. -/
def Passed (output : ProcessOutput) : Prop := output.exit_code = some 0 ∧ OK_LINE ∈ output.stdout.lines

instance (output : ProcessOutput) : Decidable (Passed output) := inferInstanceAs (Decidable (_ ∧ _))

/-- What a test shows. -/
def test_result (output : ProcessOutput) : ConnectionTestResult where
  success := decide (Passed output)
  server_line := output.stdout.lines.find? fun line => !line.trim.isEmpty && line ≠ OK_LINE
  error :=
    if Passed output then none
    else some (nonempty_or output.stderr "OpenSSH connection test failed".toList)

def test_connection (server : Server) (host : HostProfile) : Deploying ConnectionTestResult := do
  let run ← Traced.lift (world.test_run host)
  let output ← run_output server run
  pure (test_result output)

/-- The profile that the test connects with. -/
def verification_host (host : HostProfile) (path : Text) : HostProfile :=
  { host with
    identity_file := some path
    advanced := { host.advanced with identities_only := true } }

def default_draft (host : HostProfile) (path : Text) : HostDraft where
  id := some host.id
  «alias» := host.alias
  hostname := host.hostname
  port := host.port
  username := host.username
  auth_method := some .PrivateKey
  identity_file := some path
  proxy_jump := host.proxy_jump
  default_workspace := some host.default_workspace
  groups := host.groups
  advanced := some { SshAdvancedPatch.default with identities_only := some true }
  monitor_enabled := some host.monitor_enabled

def save_host (draft : HostDraft) : Deploying HostProfile :=
  Traced.ask (fun _ => (world.saved.save_host world.env draft).2) (Event.saved draft)

def operation_result (path canonical : Text) : AppResult KeyOperationResult := do
  let fingerprint ← (world.ed25519_sha256_fingerprint canonical).mapError fun e => .Process e.to_string
  .ok
    { success := true
      message := "公钥已幂等部署并通过新密钥连接复验。".toList
      private_key_path := some path
      public_key_path := some (public_key_path path)
      fingerprint := some fingerprint }

def check_deployed (deployed : ProcessOutput) : AppResult Unit :=
  if deployed.exit_code ≠ some 0 then
    .error (.Process (nonempty_or deployed.stderr "authorized_keys deployment failed".toList))
  else .ok ()

def check_verification (verification : ConnectionTestResult) : AppResult Unit :=
  if !verification.success then
    .error (.Process (verification.error.getD "fresh key verification failed".toList))
  else .ok ()

def make_default (request : KeyDeployRequest) (host : HostProfile) : Deploying Unit :=
  if request.make_default then do
    let _ ← world.save_host (default_draft host request.private_key_path)
    pure ()
  else pure ()

def deploy_key (server : Server) (request : KeyDeployRequest) : Deploying KeyOperationResult := do
  let prepared ← Traced.lift (world.prepare request)
  let deployed ← world.run_command server prepared.host prepared.command
  Traced.lift (check_deployed deployed)
  let verification ← world.test_connection server
    (verification_host prepared.host request.private_key_path)
  Traced.lift (check_verification verification)
  world.make_default request prepared.host
  Traced.lift (world.operation_result request.private_key_path prepared.canonical)

end World

/-! ### Verification -/

/-- A connection succeeded that offered the file at `path` and nothing else. -/
def Offered (path : Text) (event : Event) : Prop :=
  ∃ run output, event = .ran run (.ok output) ∧ World.Passed output ∧ Ssh.OffersOnly run.args path

def Proven (path : Text) (trace : List Event) : Prop := ∃ event ∈ trace, Offered path event

/-- A call succeeds, and has saved a profile, only after the key was used. -/
structure Verifies (path : Text) (call : Deploying KeyOperationResult) : Prop where
  success : ∀ result, (call.run []).2 = .ok result → Proven path (call.run []).1
  saved : ∀ before draft host after, (call.run []).1 = before ++ .saved draft (.ok host) :: after →
    Proven path before

/-- The profile can be saved as the default of the host. -/
def Saved (world : World) (request : KeyDeployRequest) (host : HostProfile) : Prop :=
  ∃ saved, (world.saved.save_host world.env
    (World.default_draft host request.private_key_path)).2 = .ok saved

/-- Nothing but the server can make the call fail. -/
structure Deployable (world : World) (request : KeyDeployRequest) (prepared : World.Prepared) :
    Prop where
  ready : world.prepare request = .ok prepared
  command_run : ∃ run, world.command_run prepared.host prepared.command = .ok run
  test_run : ∃ run, world.test_run
    (World.verification_host prepared.host request.private_key_path) = .ok run
  saved : request.make_default = true → Saved world request prepared.host

/-! ### The script can be sent -/

theorem frame_assoc (a b c m d e f l g : Text) : a ++ b ++ c ++ m ++ d ++ e ++ f ++ l ++ g =
    (a ++ b ++ c) ++ m ++ (d ++ e ++ f) ++ l ++ g := by
  simp only [List.append_assoc]

/-- The script is a frame around its two words. -/
theorem deploy_command_frame : ∃ a b c : Text, ∀ material line : Text,
    deploy_command material line = a ++ shell_quote material ++ b ++ shell_quote line ++ c :=
  ⟨_, _, _, fun _ _ => frame_assoc _ _ _ _ _ _ _ _ _⟩

theorem deploy_frame_plain : (deploy_command [] []).head? = some 's' ∧
    (deploy_command [] []).length ≤ 600 ∧ '\x00' ∉ deploy_command [] [] := by
  decide +kernel

/-- The script of a key is a command that can be sent. -/
theorem deploy_command_valid (key : CanonicalKey) :
    Ssh.validate_remote_command (deploy_command key.material key.line) = .ok () := by
  obtain ⟨a, b, c, hframe⟩ := deploy_command_frame
  obtain ⟨hhead, hlength, hnul⟩ := deploy_frame_plain
  have hmaterial : key.material.length ≤ key.line.length ∧ ∀ c ∈ key.material, c ∈ key.line := by
    rcases key.line_cases with hline | hline
    · rw [hline]
      exact ⟨Nat.le_refl _, fun _ hc => hc⟩
    · rw [hline, List.length_append]
      exact ⟨Nat.le_add_right _ _, fun c hc => List.mem_append_left _ hc⟩
  have hquoted : ∀ value : Text, (∀ c ∈ value, c ∈ key.line) → '\x00' ∉ shell_quote value := by
    intro value hvalue hmem
    rcases Command.mem_posix_quote hmem with hmem | hmem | hmem
    · exact absurd (key.line_control _ (hvalue _ hmem)) (by decide)
    · exact absurd hmem (by decide)
    · exact absurd hmem (by decide)
  have hlong : ¬ 32768 < (deploy_command key.material key.line).len := by
    have hline := key.line_length
    have hbound := Text.len_le (deploy_command key.material key.line)
    have hword : (shell_quote key.material).length ≤ _ := Command.posix_quote_length key.material
    have hword' : (shell_quote key.line).length ≤ _ := Command.posix_quote_length key.line
    rw [hframe] at hlength hbound ⊢
    simp only [List.length_append] at hlength hbound
    omega
  have hplain : '\x00' ∉ deploy_command key.material key.line := by
    rw [hframe] at hnul ⊢
    simp only [List.mem_append, not_or] at hnul ⊢
    exact ⟨⟨⟨⟨hnul.1.1.1.1, hquoted _ hmaterial.2⟩, hnul.1.1.2⟩, hquoted _ fun _ hc => hc⟩, hnul.2⟩
  have hstarts : 's' ∈ deploy_command key.material key.line := by
    rw [hframe] at hhead ⊢
    cases a with
    | nil => exact absurd (Option.some.inj hhead) (by decide)
    | cons first rest =>
      obtain rfl : first = 's' := Option.some.inj hhead
      exact List.mem_cons_self
  have htrim : (deploy_command key.material key.line).trim ≠ [] := by
    intro hnil
    obtain ⟨front, back, heq, hfront, hback⟩ :=
      Text.trim_between_spaces (deploy_command key.material key.line)
    rw [hnil, List.append_nil] at heq
    rw [heq] at hstarts
    rcases List.mem_append.mp hstarts with hmem | hmem
    · exact absurd (hfront _ hmem) (by decide)
    · exact absurd (hback _ hmem) (by decide)
  unfold Ssh.validate_remote_command
  rw [if_neg]
  simp only [Bool.or_eq_true, decide_eq_true_eq, List.isEmpty_iff, List.contains_iff_mem, not_or]
  exact ⟨⟨htrim, hlong⟩, hplain⟩

/-! ### What the runs offer -/

variable {world : World} {request : KeyDeployRequest} {server : Server} {host : HostProfile}
  {run : Run} {path : Text} {trace : List Event}

/-- The test offers the key exactly if the host authenticates with private keys. -/
theorem test_run_offers (h : world.test_run (World.verification_host host path) = .ok run) :
    Ssh.OffersOnly run.args path ↔ host.auth_method = .PrivateKey := by
  unfold World.test_run at h
  obtain ⟨args, hargs, h⟩ := Outcome.bind_eq_ok.mp h
  obtain ⟨program, _, h⟩ := Outcome.bind_eq_ok.mp h
  obtain rfl := Except.ok.inj h
  rw [Ssh.base_args_offer World.TEST_COMMAND hargs]
  exact ⟨fun hhost => hhost.1, fun hhost => ⟨hhost, rfl, rfl⟩⟩

theorem command_run_offers {command : Text} (h : world.command_run host command = .ok run)
    (hoffers : Ssh.OffersOnly run.args path) : host.auth_method = .PrivateKey := by
  unfold World.command_run at h
  obtain ⟨line, _, h⟩ := Outcome.bind_eq_ok.mp h
  obtain ⟨⟨program, args⟩, hspec, h⟩ := Outcome.bind_eq_ok.mp h
  obtain rfl := Except.ok.inj h
  unfold Ssh.SshRuntime.remote_command_spec at hspec
  obtain ⟨_, _, hspec⟩ := Outcome.bind_eq_ok.mp hspec
  obtain ⟨_, _, hspec⟩ := Outcome.bind_eq_ok.mp hspec
  obtain ⟨base, hbase, hspec⟩ := Outcome.bind_eq_ok.mp hspec
  obtain ⟨rfl, rfl⟩ := Prod.mk.inj (Except.ok.inj hspec)
  exact ((Ssh.base_args_offer line hbase).mp hoffers).1

/-! ### The steps -/

variable {P Q : List Event → Prop}

theorem run_output_ensures (run : Run)
    (hran : ∀ trace answer, P trace → P (trace ++ [.ran run answer])) :
    Traced.Ensures P (World.run_output server run) P
      fun output trace => P trace ∧ Event.ran run (.ok output) ∈ trace := by
  refine Traced.Ensures.ask (fun trace h => hran trace _ h) fun trace output h _ => ⟨hran trace _ h, ?_⟩
  exact List.mem_append_right _ (List.mem_singleton_self _)

/-- The script is one run. -/
theorem run_command_ensures {command : Text}
    (hran : ∀ run, world.command_run host command = .ok run →
      ∀ trace answer, P trace → P (trace ++ [.ran run answer])) :
    Traced.Ensures P (world.run_command server host command) P
      fun _ trace => P trace ∧ ∃ run, world.command_run host command = .ok run := by
  refine Traced.Ensures.lift_bind (fun _ h => h) fun run hrun => ?_
  exact (run_output_ensures run (hran run hrun)).mono (fun _ h => h) (fun _ h => h)
    fun _ _ h => ⟨h.1, run, hrun⟩

theorem check_verification_passed {output : ProcessOutput}
    (h : World.check_verification (World.test_result output) = .ok ()) : World.Passed output := by
  obtain ⟨hfailed, -⟩ := Outcome.ite_error_eq_ok.mp h
  rw [Bool.not_eq_true', Bool.not_eq_false] at hfailed
  exact of_decide_eq_true hfailed

/-- The test is one run, and is passed if its output says so. -/
theorem test_connection_ensures
    (hran : ∀ run, world.test_run host = .ok run →
      ∀ trace answer, P trace → P (trace ++ [.ran run answer])) :
    Traced.Ensures P (world.test_connection server host) P
      fun verification trace => P trace ∧ ∃ run, world.test_run host = .ok run ∧
        (World.check_verification verification = .ok () →
          ∃ output, World.Passed output ∧ .ran run (.ok output) ∈ trace) := by
  refine Traced.Ensures.lift_bind (fun _ h => h) fun run hrun => ?_
  refine Traced.Ensures.bind (run_output_ensures run (hran run hrun)) fun output => ?_
  refine Traced.Ensures.lift (fun _ h => h.1) ?_
  rintro trace verification ⟨htrace, hmem⟩ hresult
  obtain rfl := Except.ok.inj hresult
  exact ⟨htrace, run, hrun, fun hchecked => ⟨output, check_verification_passed hchecked, hmem⟩⟩

theorem save_host_ensures (draft : HostDraft)
    (hsaved : ∀ trace, P trace → Q (trace ++ [.saved draft (world.saved.save_host world.env draft).2])) :
    Traced.Ensures P (world.save_host draft) Q fun saved trace =>
      Q trace ∧ (world.saved.save_host world.env draft).2 = .ok saved := by
  unfold World.save_host
  refine Traced.Ensures.ask hsaved fun trace saved h hanswer => ⟨?_, hanswer⟩
  rw [← hanswer]
  exact hsaved trace h

/-- The profile is saved or left alone. -/
theorem make_default_ensures (hkept : ∀ trace, P trace → Q trace)
    (hsaved : ∀ trace, P trace → Q (trace ++ [.saved (World.default_draft host request.private_key_path)
      (world.saved.save_host world.env (World.default_draft host request.private_key_path)).2])) :
    Traced.Ensures P (world.make_default request host) Q fun _ trace =>
      Q trace ∧ (request.make_default = true → Saved world request host) := by
  unfold World.make_default
  split
  · refine Traced.Ensures.bind (save_host_ensures _ hsaved) fun saved => ?_
    exact Traced.Ensures.lift (fun _ h => h.1) fun _ _ h _ => ⟨h.1, fun _ => ⟨saved, h.2⟩⟩
  · exact Traced.Ensures.lift hkept fun trace _ h _ => ⟨hkept trace h, fun hdefault => absurd hdefault ‹_›⟩

/-! ### A host with private keys -/

/-- Every save comes after a proof. -/
def Guarded (path : Text) (trace : List Event) : Prop :=
  ∀ before draft host after, trace = before ++ .saved draft (.ok host) :: after → Proven path before

theorem guarded_nil (path : Text) : Guarded path [] := by
  intro before draft host after h
  exact absurd h.symm (List.append_ne_nil_of_right_ne_nil _ (List.cons_ne_nil _ _))

/-- The last event is the save, or the save was there before. -/
theorem Guarded.concat {event : Event} (h : Guarded path trace)
    (hevent : ∀ draft host, event = .saved draft (.ok host) → Proven path trace) :
    Guarded path (trace ++ [event]) := by
  intro before draft host after heq
  rcases List.eq_nil_or_concat after with rfl | ⟨front, last, rfl⟩
  · obtain ⟨rfl, hlast⟩ := List.append_inj' heq rfl
    exact hevent draft host (List.singleton_inj.mp hlast)
  · have hlast : before ++ .saved draft (.ok host) :: front.concat last =
        before ++ .saved draft (.ok host) :: front ++ [last] := by
      rw [List.concat_eq_append, List.append_assoc, List.cons_append]
    obtain ⟨rfl, -⟩ := List.append_inj' (heq.trans hlast) rfl
    exact h before draft host front rfl

theorem Guarded.ran (h : Guarded path trace) (run : Run) (answer : AppResult ProcessOutput) :
    Guarded path (trace ++ [.ran run answer]) :=
  h.concat fun _ _ hevent => nomatch hevent

theorem Proven.concat (event : Event) (h : Proven path trace) : Proven path (trace ++ [event]) := by
  obtain ⟨proof, hmem, hoffered⟩ := h
  exact ⟨proof, List.mem_append_left _ hmem, hoffered⟩

/-- A host that authenticates with private keys is verified, whatever the
    server answers. -/
theorem verifies_of_private_key (server : Server)
    (hmethod : ∀ prepared, world.prepare request = .ok prepared →
      prepared.host.auth_method = .PrivateKey) :
    Verifies request.private_key_path (world.deploy_key server request) := by
  have hcall : Traced.Ensures (Guarded request.private_key_path) (world.deploy_key server request)
      (Guarded request.private_key_path) fun _ => Proven request.private_key_path := by
    refine Traced.Ensures.lift_bind (fun _ h => h) fun prepared hprepared => ?_
    refine Traced.Ensures.bind (run_command_ensures fun run _ _ answer h => h.ran run answer) ?_
    intro deployed
    refine Traced.Ensures.lift_bind (fun _ h => h.1) fun _ _ => ?_
    refine Traced.Ensures.bind ((test_connection_ensures fun run _ _ answer h => h.ran run answer).mono
      (fun _ h => h.1) (fun _ h => h) fun _ _ h => h) ?_
    intro verification
    refine Traced.Ensures.lift_bind (fun _ h => h.1) fun _ hchecked => ?_
    have hsave : Traced.Ensures
        (fun trace => Guarded request.private_key_path trace ∧ Proven request.private_key_path trace)
        (world.make_default request prepared.host) _ _ :=
      make_default_ensures (fun _ h => h) fun trace h =>
        ⟨h.1.concat fun _ _ _ => h.2, h.2.concat _⟩
    refine Traced.Ensures.bind (hsave.mono ?_ (fun _ h => h.1) fun _ _ h => h) fun _ =>
      Traced.Ensures.lift (fun _ h => h.1.1) fun _ _ h _ => h.1.2
    -- the check has let a passed test through
    rintro trace ⟨hguarded, run, hrun, hpassed⟩
    obtain ⟨output, hok, hmem⟩ := hpassed hchecked
    have hoffers := (test_run_offers hrun).mpr (hmethod prepared hprepared)
    exact ⟨hguarded, _, hmem, run, output, rfl, hok, hoffers⟩
  obtain ⟨hguarded, hproven⟩ := hcall [] (guarded_nil _)
  exact ⟨hproven, hguarded⟩

/-! ### Another host -/

/-- A server on which everything succeeds. -/
def willing : Server := fun _ _ => .ok { exit_code := some 0, stdout := World.OK_LINE, stderr := [] }

theorem run_output_willing (run : Run) (trace : List Event) :
    ∃ trace', (World.run_output willing run).run trace = (trace', willing trace run) := ⟨_, rfl⟩

/-- A canonical line has a fingerprint. -/
theorem operation_result_canonical (world : World) (key : CanonicalKey) (path : Text) :
    ∃ result, world.operation_result path key.line = .ok result := by
  obtain ⟨parsed, hparsed, halgorithm, hpayload, -⟩ := key.parse_line
  obtain ⟨blob, hblob⟩ := toBool_eq_true key.valid
  have hfingerprint : world.ed25519_sha256_fingerprint key.line =
      .ok ("SHA256:".toList ++ encode_base64_no_padding (world.sha256 blob)) := by
    unfold World.ed25519_sha256_fingerprint
    rw [hparsed, Option.ok_or, Outcome.ok_bind, if_neg (not_not.mpr halgorithm), hpayload, hblob]
    rfl
  unfold World.operation_result
  rw [hfingerprint]
  exact ⟨_, rfl⟩

/-- What is prepared is the script of a canonical key. -/
theorem prepare_key {prepared : World.Prepared} (h : world.prepare request = .ok prepared) :
    ∃ key : CanonicalKey, prepared.canonical = key.line ∧
      prepared.command = deploy_command key.material key.line := by
  unfold World.prepare at h
  obtain ⟨_, _, h⟩ := Outcome.bind_eq_ok.mp h
  obtain ⟨_, h⟩ := Outcome.ite_error_eq_ok.mp h
  obtain ⟨content, _, h⟩ := Outcome.bind_eq_ok.mp h
  obtain ⟨canonical, hcanonical, h⟩ := Outcome.bind_eq_ok.mp h
  obtain ⟨parsed, hparsed, h⟩ := Outcome.bind_eq_ok.mp h
  obtain ⟨host, _, h⟩ := Outcome.bind_eq_ok.mp h
  obtain rfl := Except.ok.inj h
  obtain ⟨key, rfl⟩ := CanonicalKey.of_canonical (Outcome.mapError_eq_ok.mp hcanonical)
  obtain ⟨read, hread, halgorithm, hpayload, -⟩ := key.parse_line
  rw [Option.ok_or_eq_ok, hread, Option.some.injEq] at hparsed
  refine ⟨key, rfl, ?_⟩
  rw [← hparsed, halgorithm, hpayload]
  rfl

theorem test_connection_willing (h : world.test_run host = .ok run) (trace : List Event) :
    ∃ trace' verification,
      (world.test_connection willing host).run trace = (trace', .ok verification) ∧
        World.check_verification verification = .ok () := by
  obtain ⟨trace', hran⟩ := run_output_willing run trace
  unfold World.test_connection
  rw [Traced.bind_ok (Traced.lift_ok h trace), Traced.bind_ok hran]
  exact ⟨trace', _, rfl, by decide⟩

theorem make_default_willing (h : request.make_default = true → Saved world request host)
    (trace : List Event) :
    ∃ trace', (world.make_default request host).run trace = (trace', .ok ()) := by
  unfold World.make_default
  split
  · obtain ⟨saved, hsaved⟩ := h ‹_›
    have hsave : (world.save_host (World.default_draft host request.private_key_path)).run trace =
        (trace ++ [.saved (World.default_draft host request.private_key_path) (.ok saved)], .ok saved) := by
      unfold World.save_host Traced.ask
      dsimp only
      rw [hsaved]
    rw [Traced.bind_ok hsave]
    exact ⟨_, rfl⟩
  · exact ⟨trace, rfl⟩

/-- On such a server the call succeeds. -/
theorem deploys_willing {prepared : World.Prepared} (h : Deployable world request prepared) :
    ∃ trace result, (world.deploy_key willing request).run [] = (trace, .ok result) := by
  obtain ⟨command, hcommand⟩ := h.command_run
  obtain ⟨test, htest⟩ := h.test_run
  obtain ⟨key, hcanonical, -⟩ := prepare_key h.ready
  obtain ⟨result, hresult⟩ :=
    operation_result_canonical world key request.private_key_path
  rw [← hcanonical] at hresult
  obtain ⟨first, hfirst⟩ := run_output_willing command []
  obtain ⟨second, verification, hsecond, hchecked⟩ := test_connection_willing htest first
  obtain ⟨third, hthird⟩ := make_default_willing h.saved second
  have hscript : (world.run_command willing prepared.host prepared.command).run [] =
      (first, .ok { exit_code := some 0, stdout := World.OK_LINE, stderr := [] }) := by
    unfold World.run_command
    rw [Traced.bind_ok (Traced.lift_ok hcommand [])]
    exact hfirst
  have hdeployed : World.check_deployed
      { exit_code := some 0, stdout := World.OK_LINE, stderr := [] } = .ok () := rfl
  unfold World.deploy_key
  rw [Traced.bind_ok (Traced.lift_ok h.ready []), Traced.bind_ok hscript,
    Traced.bind_ok (Traced.lift_ok hdeployed first), Traced.bind_ok hsecond,
    Traced.bind_ok (Traced.lift_ok hchecked second), Traced.bind_ok hthird]
  exact ⟨third, result, Traced.lift_ok hresult third⟩

/-- Another host is never offered the key alone. -/
theorem not_offered {prepared : World.Prepared} (server : Server)
    (hready : world.prepare request = .ok prepared) (hmethod : prepared.host.auth_method ≠ .PrivateKey) :
    ¬ Proven request.private_key_path ((world.deploy_key server request).run []).1 := by
  let Silent := fun trace => ¬ Proven request.private_key_path trace
  have hconcat : ∀ trace event, Silent trace → ¬ Offered request.private_key_path event →
      Silent (trace ++ [event]) := by
    rintro trace event hsilent hevent ⟨proof, hmem, hoffered⟩
    rcases List.mem_append.mp hmem with hmem | hmem
    · exact hsilent ⟨proof, hmem, hoffered⟩
    · exact hevent (List.mem_singleton.mp hmem ▸ hoffered)
  have hran : ∀ run, ¬ Ssh.OffersOnly run.args request.private_key_path →
      ∀ trace answer, Silent trace → Silent (trace ++ [.ran run answer]) := by
    intro run hother trace answer hsilent
    refine hconcat trace _ hsilent ?_
    rintro ⟨run', output, heq, -, hoffers⟩
    cases heq
    exact hother hoffers
  have hcall : Traced.Ensures Silent (world.deploy_key server request) Silent fun _ => Silent := by
    refine Traced.Ensures.lift_bind (fun _ h => h) fun found hfound => ?_
    obtain rfl := Except.ok.inj (hready.symm.trans hfound)
    refine Traced.Ensures.bind (run_command_ensures fun run hrun =>
      hran run fun hoffers => hmethod (command_run_offers hrun hoffers)) fun deployed => ?_
    refine Traced.Ensures.lift_bind (fun _ h => h.1) fun _ _ => ?_
    refine Traced.Ensures.bind ((test_connection_ensures fun run hrun =>
      hran run fun hoffers => hmethod ((test_run_offers hrun).mp hoffers)).mono
      (fun _ h => h.1) (fun _ h => h) fun _ _ h => h.1) fun verification => ?_
    refine Traced.Ensures.lift_bind (fun _ h => h) fun _ _ => ?_
    refine Traced.Ensures.bind (make_default_ensures (fun _ h => h) fun trace h =>
      hconcat trace _ h fun hoffered => ?_) fun _ => ?_
    · obtain ⟨_, _, heq, -⟩ := hoffered
      cases heq
    · exact Traced.Ensures.lift (fun _ h => h.1) fun _ _ h _ => h.1
  refine (hcall [] ?_).1
  rintro ⟨_, hmem, -⟩
  cases hmem

/-- No profile was saved. -/
def Unsaved (trace : List Event) : Prop := ∀ draft host, .saved draft (.ok host) ∉ trace

theorem Unsaved.concat {event : Event} (h : Unsaved trace)
    (hevent : ∀ draft host, event ≠ .saved draft (.ok host)) : Unsaved (trace ++ [event]) := by
  intro draft host hmem
  rcases List.mem_append.mp hmem with hmem | hmem
  · exact h draft host hmem
  · exact hevent draft host (List.mem_singleton.mp hmem).symm

/-- A save that succeeds shows that it can. -/
theorem unsaved_or_saved (h : Unsaved trace) :
    Unsaved (trace ++ [.saved (World.default_draft host request.private_key_path)
      (world.saved.save_host world.env (World.default_draft host request.private_key_path)).2]) ∨
        Saved world request host := by
  cases hsave : (world.saved.save_host world.env
      (World.default_draft host request.private_key_path)).2 with
  | error e => exact .inl (h.concat fun _ _ heq => nomatch heq)
  | ok saved => exact .inr ⟨saved, hsave⟩

/-- A success and a save need all that the call does without the server. -/
theorem deployable_of_done (world : World) (request : KeyDeployRequest) (server : Server) :
    (∀ result, ((world.deploy_key server request).run []).2 = .ok result →
      ∃ prepared, Deployable world request prepared) ∧
    ∀ draft host, .saved draft (.ok host) ∈ ((world.deploy_key server request).run []).1 →
      ∃ prepared, Deployable world request prepared := by
  have hcall : Traced.Ensures Unsaved (world.deploy_key server request)
      (fun trace => Unsaved trace ∨ ∃ prepared, Deployable world request prepared)
      fun _ _ => ∃ prepared, Deployable world request prepared := by
    refine Traced.Ensures.lift_bind (fun _ h => .inl h) fun prepared hready => ?_
    have hran : ∀ run trace answer, Unsaved trace → Unsaved (trace ++ [.ran run answer]) :=
      fun run trace answer h => h.concat fun _ _ heq => nomatch heq
    refine Traced.Ensures.bind ((run_command_ensures fun run _ trace answer h => hran run trace answer h).mono
      (fun _ h => h) (fun _ h => .inl h) fun _ _ h => h) fun deployed => ?_
    refine Traced.Ensures.lift_bind (fun _ h => .inl h.1) fun _ _ => ?_
    refine Traced.Ensures.bind ((test_connection_ensures fun run _ trace answer h =>
      ⟨hran run trace answer h.1, h.2⟩).mono (fun _ h => h) (fun _ h => .inl h.1) fun _ _ h => h) ?_
    intro verification
    refine Traced.Ensures.lift_bind (fun _ h => .inl h.1.1) fun _ _ => ?_
    let Runs := (∃ run, world.command_run prepared.host prepared.command = .ok run) ∧
      ∃ run, world.test_run (World.verification_host prepared.host request.private_key_path) = .ok run
    have hdone : Runs → (request.make_default = true → Saved world request prepared.host) →
        ∃ prepared, Deployable world request prepared :=
      fun hruns hsaved => ⟨prepared, hready, hruns.1, hruns.2, hsaved⟩
    have hsave : Traced.Ensures (fun trace => Unsaved trace ∧ Runs)
        (world.make_default request prepared.host)
        (fun trace => (Unsaved trace ∨ Saved world request prepared.host) ∧ Runs) _ :=
      make_default_ensures (fun _ h => ⟨.inl h.1, h.2⟩) fun _ h => ⟨unsaved_or_saved h.1, h.2⟩
    have halways : ∀ trace, (Unsaved trace ∨ Saved world request prepared.host) ∧ Runs →
        Unsaved trace ∨ ∃ prepared, Deployable world request prepared := by
      rintro trace ⟨hunsaved | hsaved, hruns⟩
      · exact .inl hunsaved
      · exact .inr (hdone hruns fun _ => hsaved)
    refine Traced.Ensures.bind (hsave.mono ?_ halways fun _ _ h => h) fun _ =>
      Traced.Ensures.lift (fun trace h => halways trace h.1) fun _ _ h _ => hdone h.1.2 h.2
    rintro trace ⟨⟨hunsaved, hcommand⟩, test, htest, -⟩
    exact ⟨hunsaved, hcommand, test, htest⟩
  obtain ⟨halways, hsuccess⟩ := hcall [] fun _ _ => List.not_mem_nil
  refine ⟨hsuccess, fun draft host hmem => halways.resolve_left fun hunsaved => ?_⟩
  exact hunsaved draft host hmem

def agent_host : HostProfile where
  schema_version := 1
  id := "host".toList
  «alias» := "lab".toList
  hostname := "lab".toList
  port := 22
  username := "user".toList
  auth_method := .Agent
  identity_file := none
  proxy_jump := none
  default_workspace := []
  groups := []
  advanced := .default
  monitor_enabled := false
  created_at := 0
  updated_at := 0

def agent_request : KeyDeployRequest where
  host_id := agent_host.id
  private_key_path := "/home/user/.ssh/id_lab".toList
  make_default := false

def agent_runtime : Ssh.SshRuntime where
  ssh_path := some "/usr/bin/ssh".toList
  known_hosts_path := "known_hosts".toList
  known_hosts_exists := true
  repository := none
  windows := false

/-- A world in which the host is saved and the key is there. -/
def agent_world : World where
  is_file _ := true
  read _ := .ok plain_key.line.utf8
  sha256 := id
  hosts := { state := { PersistedState.default with hosts := [agent_host] }, deleting_hosts := ∅ }
  command_runtime := agent_runtime
  test_runtime := agent_runtime
  saved := { state := { PersistedState.default with hosts := [agent_host] }, deleting_hosts := ∅ }
  env :=
    { new_uuid := fun _ => 0
      now := fun n => n
      write := .ok ()
      hash_order := id
      hash_order_perm := List.Perm.refl }

theorem agent_prepared : ∃ prepared, agent_world.prepare agent_request = .ok prepared ∧
    prepared.host = agent_host := by
  have hpath : validate_local_path agent_request.private_key_path = .ok () := by decide
  have hread : agent_world.read_bounded_utf8 (public_key_path agent_request.private_key_path)
      MAX_PUBLIC_KEY_FILE_BYTES = .ok plain_key.line := by
    have hline := plain_key.line_len
    have hshort : ¬ MAX_PUBLIC_KEY_FILE_BYTES < plain_key.line.utf8.length := by
      rw [Text.length_utf8]
      unfold MAX_PUBLIC_KEY_FILE_BYTES
      omega
    unfold World.read_bounded_utf8
    rw [show agent_world.read _ = .ok plain_key.line.utf8 from rfl, Outcome.ok_bind, if_neg hshort,
      Text.from_utf8_utf8]
    rfl
  obtain ⟨canonical, hcanonical⟩ : ∃ canonical,
      canonical_ed25519_public_key plain_key.line = .ok canonical := by
    obtain ⟨parsed, hparsed, halgorithm, hpayload, -⟩ := plain_key.parse_line
    obtain ⟨blob, hblob⟩ := toBool_eq_true plain_key.valid
    unfold canonical_ed25519_public_key
    rw [hparsed, Option.elim_some, Outcome.ok_bind, if_neg (not_not.mpr halgorithm), hpayload, hblob]
    exact ⟨_, rfl⟩
  obtain ⟨key, rfl⟩ := CanonicalKey.of_canonical hcanonical
  obtain ⟨parsed, hparsed, -⟩ := key.parse_line
  have hhost : agent_world.hosts.host agent_request.host_id = .ok agent_host := rfl
  unfold World.prepare
  rw [hpath, Outcome.ok_bind]
  dsimp only
  rw [if_neg (by decide), hread, Outcome.ok_bind, hcanonical, Except.mapError, Outcome.ok_bind, hparsed,
    Option.ok_or, Outcome.ok_bind, hhost]
  exact ⟨_, rfl, rfl⟩

/-- The options of an agent's host can be made without a jump. -/
theorem agent_base_args {host : HostProfile} (hmethod : host.auth_method = .Agent)
    (hjump : host.proxy_jump = none) : ∃ args, agent_runtime.base_args host true = .ok args := by
  have hdirect : ∃ args, agent_runtime.direct_connection_args host true "-p".toList = .ok args := by
    have hknown : ¬ agent_runtime.known_hosts_exists = false := by decide
    unfold Ssh.SshRuntime.direct_connection_args Ssh.auth_args
    rw [if_neg hknown, hmethod, Outcome.ok_bind]
    exact ⟨_, rfl⟩
  obtain ⟨args, hargs⟩ := hdirect
  have hresolve : agent_runtime.resolve_jump host = .ok none := if_pos hjump
  unfold Ssh.SshRuntime.base_args Ssh.SshRuntime.connection_args
  rw [hargs, Outcome.ok_bind, hresolve]
  exact ⟨args, rfl⟩

theorem agent_deployable : ∃ prepared, Deployable agent_world agent_request prepared ∧
    prepared.host.auth_method ≠ .PrivateKey := by
  obtain ⟨prepared, hready, hhost⟩ := agent_prepared
  obtain ⟨key, -, hcommand⟩ := prepare_key hready
  have hssh : agent_runtime.ssh = .ok "/usr/bin/ssh".toList := rfl
  refine ⟨prepared, ⟨hready, ?_, ?_, fun hdefault => absurd hdefault (by decide)⟩, ?_⟩
  · have hvalid := deploy_command_valid key
    have hline : Ssh.remote_line (deploy_command key.material key.line) none =
        .ok (deploy_command key.material key.line) := by
      unfold Ssh.remote_line
      rw [hvalid, Outcome.ok_bind]
      rfl
    have hargs : ∃ args, agent_runtime.base_args agent_host true = .ok args := agent_base_args rfl rfl
    obtain ⟨args, hargs⟩ := hargs
    have hruntime : agent_world.command_runtime = agent_runtime := rfl
    unfold World.command_run Ssh.SshRuntime.remote_command_spec
    rw [hcommand, hhost, hline, Outcome.ok_bind, hvalid, Outcome.ok_bind, hruntime, hssh,
      Outcome.ok_bind, hargs]
    exact ⟨_, rfl⟩
  · have hargs : ∃ args, agent_runtime.base_args
        (World.verification_host agent_host agent_request.private_key_path) true = .ok args :=
      agent_base_args rfl rfl
    obtain ⟨args, hargs⟩ := hargs
    have hruntime : agent_world.test_runtime = agent_runtime := rfl
    unfold World.test_run
    rw [hhost, hruntime, hargs, Outcome.ok_bind, hssh]
    exact ⟨_, rfl⟩
  · rw [hhost]
    decide

end Keys
