import RemoteDeck.Command.Directory
import RemoteDeck.Store.Repository

/-! # Arguments of ssh

    `direct_connection_args` and `connection_args` of `ssh.rs`, and what they
    offer to the server.

    This file defines:
    - `SshRuntime`: what the arguments are made from besides the host
    - `direct_connection_args`, `proxy_command`, `connection_args` and
      `remote_command_spec`
    - `flags`, `options`, `identities`: the reading of an argument list
    - `OffersOnly`: nothing but one identity file is offered

    The identity file of a host is offered for private-key authentication
    only (`connection_args_offer`).
-/

namespace Ssh

/-! ### Building -/

structure SshRuntime where
  ssh_path : Option Text
  known_hosts_path : Text
  known_hosts_exists : Bool
  repository : Option Store.Repository
  windows : Bool

def destination (host : HostProfile) : Text := host.username ++ '@' :: host.hostname

def yes_no (value : Bool) : Text := if value then "yes".toList else "no".toList

/-- `name=value`. -/
def setting (name : String) (value : Text) : Text := name.toList ++ '=' :: value

/-- The arguments that `push_option` adds. -/
def push_option (name : String) (value : Text) : List Text := ["-o".toList, setting name value]

def SshRuntime.null_device (runtime : SshRuntime) : Text :=
  if runtime.windows then "NUL".toList else "/dev/null".toList

def SshRuntime.push_strict_host_key_options (runtime : SshRuntime) : List Text :=
  push_option "StrictHostKeyChecking" "yes".toList ++
  push_option "UserKnownHostsFile" runtime.known_hosts_path ++
  push_option "GlobalKnownHostsFile" runtime.null_device ++
  push_option "UpdateHostKeys" "no".toList ++
  push_option "VerifyHostKeyDNS" "no".toList ++
  push_option "CheckHostIP" "no".toList

/-- What the authentication method adds. -/
def auth_args (host : HostProfile) : AppResult (List Text) :=
  match host.auth_method with
  | .PrivateKey => do
      let identity ← host.identity_file.ok_or
        (.Validation "private-key authentication requires an identity file".toList)
      .ok (push_option "PreferredAuthentications" "publickey".toList ++ ["-i".toList, identity] ++
        if host.advanced.identities_only then push_option "IdentitiesOnly" "yes".toList else [])
  | .Agent => .ok (push_option "PreferredAuthentications" "publickey".toList)
  | .Interactive =>
      .ok (push_option "PreferredAuthentications" "keyboard-interactive,password".toList)

namespace SshRuntime

variable (runtime : SshRuntime)

def direct_connection_args (host : HostProfile) (batch_mode : Bool) (port_flag : Text) :
    AppResult (List Text) :=
  if runtime.known_hosts_exists = false then
    .error (.State "known_hosts file is unavailable".toList)
  else do
    let auth ← auth_args host
    .ok (["-F".toList, "none".toList, port_flag, host.port.toNat.text] ++
      push_option "BatchMode" (yes_no batch_mode) ++
      runtime.push_strict_host_key_options ++
      push_option "ConnectTimeout" host.advanced.connect_timeout_seconds.text ++
      push_option "ServerAliveInterval" host.advanced.server_alive_interval_seconds.text ++
      push_option "ServerAliveCountMax" host.advanced.server_alive_count_max.text ++
      push_option "TCPKeepAlive" (yes_no host.advanced.tcp_keep_alive) ++
      push_option "Compression" (yes_no host.advanced.compression) ++ auth)

def ssh : AppResult Text := runtime.ssh_path.ok_or (.MissingExecutable "OpenSSH ssh.exe".toList)

def resolve_jump (host : HostProfile) : AppResult (Option HostProfile) :=
  if host.proxy_jump = none then .ok none
  else do
    let repository ← runtime.repository.ok_or
      (.State "ProxyJump resolution requires the saved-host repository".toList)
    repository.resolve_jump_host host

/-- The characters of an endpoint of a proxy command. -/
def endpoint_character (more : List Char) (c : Char) : Bool := c.isAlphanum || more.contains c

def validate_proxy_endpoint (host : HostProfile) : AppResult Unit :=
  let valid_username := !host.username.isEmpty && host.username.len ≤ 128 &&
    host.username.all (endpoint_character ['.', '_', '-', '+'])
  let valid_hostname := !host.hostname.isEmpty && host.hostname.len ≤ 512 &&
    host.hostname.head? ≠ some '-' &&
    host.hostname.all (endpoint_character ['.', '_', '-', ':', '[', ']'])
  if !valid_username || !valid_hostname then
    .error (.Validation ("host '".toList ++ host.alias ++
      "' contains characters that are unsafe for a ProxyJump command".toList))
  else .ok ()

def proxy_command_argument (value : Text) : AppResult Text :=
  if value.contains '\x00' || value.contains '\r' || value.contains '\n' then
    .error (.Validation "ProxyJump command argument contains a control character".toList)
  else if runtime.windows = false then .ok (Command.posix_quote value)
  else if value.any fun c => ['"', '%', '!', '^', '&', '|', '<', '>', '$', '\x60'].contains c then
    .error (.Validation "ProxyJump command argument contains a Windows shell metacharacter".toList)
  else
    .ok ('"' :: value ++ value.rtakeWhile (· = '\\') ++ ['"'])

def format_proxy_command (program : Text) (args : List Text) : AppResult Text := do
  let first ← runtime.proxy_command_argument program
  let others ← args.mapM fun argument =>
    if argument = "%h:%p".toList then
      .ok (if runtime.windows then "\"%h:%p\"".toList else Command.posix_quote argument)
    else runtime.proxy_command_argument argument
  .ok (Text.join ' ' (first :: others))

/-- The jump host as `jump_connection_args` connects to it. -/
def isolated (jump : HostProfile) : HostProfile :=
  match jump.auth_method with
  | .PrivateKey => { jump with advanced := { jump.advanced with identities_only := true } }
  | .Agent | .Interactive =>
      { jump with
        identity_file := none
        advanced := { jump.advanced with identities_only := false } }

def jump_connection_args (jump : HostProfile) : AppResult (List Text) :=
  runtime.direct_connection_args (isolated jump) true "-p".toList

def proxy_command (jump : HostProfile) : AppResult Text := do
  let args ← runtime.jump_connection_args jump
  let ssh ← runtime.ssh
  runtime.format_proxy_command ssh (args ++ push_option "ClearAllForwardings" "yes".toList ++
    push_option "ExitOnForwardFailure" "yes".toList ++
    ["-W".toList, "%h:%p".toList, destination jump])

def connection_args (host : HostProfile) (batch_mode : Bool) (port_flag : Text) :
    AppResult (List Text) := do
  let args ← runtime.direct_connection_args host batch_mode port_flag
  match ← runtime.resolve_jump host with
  | none => .ok args
  | some jump =>
      validate_proxy_endpoint host
      validate_proxy_endpoint jump
      let command ← runtime.proxy_command jump
      .ok (args ++ push_option "ProxyCommand" command ++ push_option "ProxyUseFdpass" "no".toList)

def base_args (host : HostProfile) (batch_mode : Bool) : AppResult (List Text) :=
  runtime.connection_args host batch_mode "-p".toList

def remote_command_spec (host : HostProfile) (remote_command : Text) (batch_mode : Bool) :
    AppResult (Text × List Text) := do
  validate_remote_command remote_command
  let program ← runtime.ssh
  let args ← runtime.base_args host batch_mode
  .ok (program, args ++ [destination host, remote_command])

end SshRuntime

/-! ### Reading -/

/-- The flags before the destination, each with its value. -/
def flags : List Text → List (Text × Text)
  | flag :: value :: rest => if flag.head? = some '-' then (flag, value) :: flags rest else []
  | _ => []

/-- The options, of which the first with a name counts. -/
def options (args : List Text) : List (Text × Text) :=
  (flags args).filterMap fun item => if item.1 = "-o".toList then item.2.split_once '=' else none

/-- The files given with `-i`. -/
def identities (args : List Text) : List Text :=
  (flags args).filterMap fun item => if item.1 = "-i".toList then some item.2 else none

/-- The options that say how to authenticate. -/
def AUTHENTICATION_OPTIONS : List Text :=
  ["PreferredAuthentications".toList, "IdentitiesOnly".toList, "IdentityFile".toList,
    "IdentityAgent".toList, "CertificateFile".toList, "PKCS11Provider".toList]

/-- One identity file is offered, and nothing else. -/
structure OffersOnly (args : List Text) (path : Text) : Prop where
  identity : identities args = [path]
  identities_only : (options args).lookup "IdentitiesOnly".toList = some "yes".toList
  publickey : (options args).lookup "PreferredAuthentications".toList = some "publickey".toList
  no_other : ∀ name ∈ ["IdentityFile", "IdentityAgent", "CertificateFile", "PKCS11Provider"],
    (options args).lookup name.toList = none

/-! ### What has no say -/

theorem split_once_setting {name : String} (value : Text) (h : '=' ∉ name.toList) :
    (setting name value).split_once '=' = some (name.toList, value) := by
  unfold setting
  generalize name.toList = front at h
  induction front with
  | nil => rfl
  | cons c front ih =>
    obtain ⟨hc, hfront⟩ := not_or.mp (List.mem_cons.not.mp h)
    rw [List.cons_append, Text.split_once, if_neg (Ne.symm hc), ih hfront]
    rfl

theorem options_push_option {name : String} (value : Text) (tail : List Text)
    (h : '=' ∉ name.toList) :
    options (push_option name value ++ tail) = (name.toList, value) :: options tail := by
  have hflags : flags (push_option name value ++ tail) = ("-o".toList, setting name value) :: flags tail :=
    rfl
  unfold options
  rw [hflags, List.filterMap_cons, if_pos rfl, split_once_setting value h]

theorem identities_push_option (name : String) (value : Text) (tail : List Text) :
    identities (push_option name value ++ tail) = identities tail := rfl

/-- Arguments that do not say how to authenticate. -/
def Inert (args : List Text) : Prop :=
  ∀ tail, identities (args ++ tail) = identities tail ∧
    ∀ name ∈ AUTHENTICATION_OPTIONS, (options (args ++ tail)).lookup name = (options tail).lookup name

theorem inert_nil : Inert [] := fun _ => ⟨rfl, fun _ _ => rfl⟩

theorem Inert.append {args more : List Text} (h : Inert args) (hmore : Inert more) :
    Inert (args ++ more) := by
  intro tail
  rw [List.append_assoc]
  obtain ⟨hidentities, hoptions⟩ := h (more ++ tail)
  obtain ⟨hidentities', hoptions'⟩ := hmore tail
  exact ⟨hidentities.trans hidentities', fun name hname =>
    (hoptions name hname).trans (hoptions' name hname)⟩

theorem inert_push_option {name : String} (value : Text) (h : '=' ∉ name.toList)
    (hname : name.toList ∉ AUTHENTICATION_OPTIONS) : Inert (push_option name value) := by
  refine fun tail => ⟨identities_push_option name value tail, fun other hother => ?_⟩
  have hne : (other == name.toList) = false := by
    rw [beq_eq_false_iff_ne]
    rintro rfl
    exact hname hother
  rw [options_push_option value tail h, List.lookup_cons, hne]

/-- A flag of another kind. -/
theorem inert_flag {flag : Text} (value : Text) (hflag : flag.head? = some '-')
    (hi : flag ≠ "-i".toList) (ho : flag ≠ "-o".toList) : Inert [flag, value] := by
  intro tail
  have hflags : flags ([flag, value] ++ tail) = (flag, value) :: flags tail := if_pos hflag
  constructor
  · unfold identities
    rw [hflags, List.filterMap_cons, if_neg hi]
  · intro name _
    unfold options
    rw [hflags, List.filterMap_cons, if_neg ho]

/-! ### What is offered -/

variable {runtime : SshRuntime} {host : HostProfile} {args : List Text} {batch_mode : Bool}
  {path : Text}

/-- Only the authentication method speaks. -/
theorem direct_connection_args_spec {port_flag : Text} (hport : port_flag ∈ ["-p".toList, "-P".toList])
    (h : runtime.direct_connection_args host batch_mode port_flag = .ok args) :
    ∃ front auth, args = front ++ auth ∧ Inert front ∧ auth_args host = .ok auth := by
  unfold SshRuntime.direct_connection_args at h
  obtain ⟨_, h⟩ := Outcome.ite_error_eq_ok.mp h
  obtain ⟨auth, hauth, h⟩ := Outcome.bind_eq_ok.mp h
  refine ⟨_, auth, (Except.ok.inj h).symm, ?_, hauth⟩
  have hfile : Inert ["-F".toList, "none".toList] := inert_flag _ rfl (by decide) (by decide)
  have hflag : Inert [port_flag, host.port.toNat.text] := by
    simp only [List.mem_cons, List.not_mem_nil, or_false] at hport
    rcases hport with rfl | rfl
    · exact inert_flag _ rfl (by decide) (by decide)
    · exact inert_flag _ rfl (by decide) (by decide)
  have hstrict : Inert runtime.push_strict_host_key_options := by
    unfold SshRuntime.push_strict_host_key_options
    repeat' apply Inert.append
    all_goals exact inert_push_option _ (by decide) (by decide)
  apply Inert.append
  · apply Inert.append
    · apply Inert.append
      · apply Inert.append
        · apply Inert.append
          · apply Inert.append
            · apply Inert.append
              · exact hfile.append hflag
              · exact inert_push_option _ (by decide) (by decide)
            · exact hstrict
          · exact inert_push_option _ (by decide) (by decide)
        · exact inert_push_option _ (by decide) (by decide)
      · exact inert_push_option _ (by decide) (by decide)
    · exact inert_push_option _ (by decide) (by decide)
  · exact inert_push_option _ (by decide) (by decide)

theorem connection_args_spec {port_flag : Text} (hport : port_flag ∈ ["-p".toList, "-P".toList])
    (h : runtime.connection_args host batch_mode port_flag = .ok args) :
    ∃ front auth back, args = front ++ auth ++ back ∧ Inert front ∧ Inert back ∧
      auth_args host = .ok auth := by
  unfold SshRuntime.connection_args at h
  obtain ⟨direct, hdirect, h⟩ := Outcome.bind_eq_ok.mp h
  obtain ⟨front, auth, rfl, hfront, hauth⟩ := direct_connection_args_spec hport hdirect
  obtain ⟨jump, hjump, h⟩ := Outcome.bind_eq_ok.mp h
  cases jump with
  | none =>
    refine ⟨front, auth, [], ?_, hfront, inert_nil, hauth⟩
    rw [List.append_nil]
    exact (Except.ok.inj h).symm
  | some jump =>
    obtain ⟨_, _, h⟩ := Outcome.bind_eq_ok.mp h
    obtain ⟨_, _, h⟩ := Outcome.bind_eq_ok.mp h
    obtain ⟨command, _, h⟩ := Outcome.bind_eq_ok.mp h
    refine ⟨front, auth,
      push_option "ProxyCommand" command ++ push_option "ProxyUseFdpass" "no".toList,
      ?_, hfront, ?_, hauth⟩
    · exact (Except.ok.inj h).symm.trans (List.append_assoc _ _ _)
    · exact (inert_push_option command (by decide) (by decide)).append
        (inert_push_option _ (by decide) (by decide))

/-- The destination and the command are no flags. -/
theorem inert_destination (host : HostProfile) (command : Text) :
    identities [destination host, command] = [] ∧ options [destination host, command] = [] := by
  have hat : '@' ∈ destination host := by simp [destination]
  have hne : ∀ flag : Text, '@' ∉ flag → destination host ≠ flag := by
    rintro flag hflag rfl
    exact hflag hat
  have hi := hne "-i".toList (by decide)
  have ho := hne "-o".toList (by decide)
  unfold identities options flags
  split
  · constructor
    · rw [List.filterMap_cons, if_neg hi]
      rfl
    · rw [List.filterMap_cons, if_neg ho]
      rfl
  · exact ⟨rfl, rfl⟩

/-- What the arguments offer is what the authentication method adds. -/
theorem base_args_reads (command : Text) (h : runtime.base_args host batch_mode = .ok args) :
    ∃ auth, auth_args host = .ok auth ∧
      ∃ tail, identities tail = [] ∧ (∀ name ∈ AUTHENTICATION_OPTIONS, (options tail).lookup name = none) ∧
        identities (args ++ [destination host, command]) = identities (auth ++ tail) ∧
        ∀ name ∈ AUTHENTICATION_OPTIONS,
          (options (args ++ [destination host, command])).lookup name =
            (options (auth ++ tail)).lookup name := by
  obtain ⟨front, auth, back, rfl, hfront, hback, hauth⟩ := connection_args_spec (by decide) h
  obtain ⟨hidentities, hoptions⟩ := inert_destination host command
  obtain ⟨hback_identities, hback_options⟩ := hback [destination host, command]
  refine ⟨auth, hauth, back ++ [destination host, command], hback_identities.trans hidentities, ?_, ?_⟩
  · intro name hname
    rw [hback_options name hname, hoptions, List.lookup_nil]
  · have hargs : front ++ auth ++ back ++ [destination host, command] =
        front ++ (auth ++ (back ++ [destination host, command])) := by
      simp only [List.append_assoc]
    rw [hargs]
    exact hfront _

/-- No file is offered without private-key authentication. -/
theorem identities_auth_args {auth tail : List Text} (hauth : auth_args host = .ok auth)
    (hmethod : host.auth_method ≠ .PrivateKey) : identities (auth ++ tail) = identities tail := by
  unfold auth_args at hauth
  cases hcase : host.auth_method with
  | PrivateKey => exact absurd hcase hmethod
  | Agent | Interactive =>
    rw [hcase] at hauth
    rw [← Except.ok.inj hauth]
    exact identities_push_option _ _ _

/-- The identity file is read back. -/
theorem reads_identity (identity : Text) (more : List Text) :
    identities (["-i".toList, identity] ++ more) = identity :: identities more ∧
      options (["-i".toList, identity] ++ more) = options more := by
  have hflags : flags (["-i".toList, identity] ++ more) = ("-i".toList, identity) :: flags more := rfl
  have hother : ¬"-i".toList = "-o".toList := by decide
  unfold identities options
  rw [hflags, List.filterMap_cons, List.filterMap_cons, if_pos rfl, if_neg hother]
  exact ⟨rfl, rfl⟩

/-- What private-key authentication adds, as it is read back. -/
theorem private_key_reads {auth : List Text} {identity : Text} (tail : List Text)
    (hauth : push_option "PreferredAuthentications" "publickey".toList ++ ["-i".toList, identity] ++
      (if host.advanced.identities_only then push_option "IdentitiesOnly" "yes".toList else []) = auth) :
    identities (auth ++ tail) = identity :: identities tail ∧
      options (auth ++ tail) = ("PreferredAuthentications".toList, "publickey".toList) ::
        if host.advanced.identities_only
        then ("IdentitiesOnly".toList, "yes".toList) :: options tail
        else options tail := by
  subst hauth
  rw [List.append_assoc, List.append_assoc]
  constructor
  · rw [identities_push_option, (reads_identity _ _).1]
    cases host.advanced.identities_only with
    | true => exact congrArg _ (identities_push_option _ _ _)
    | false => rfl
  · rw [options_push_option _ _ (by decide), (reads_identity _ _).2]
    cases host.advanced.identities_only with
    | true => exact congrArg _ (options_push_option _ _ (by decide))
    | false => rfl

/-- **What a connection offers**: the identity file of the host alone, exactly if
    it authenticates with a private key and uses no other identity. -/
theorem base_args_offer (command : Text) (h : runtime.base_args host batch_mode = .ok args) :
    OffersOnly (args ++ [destination host, command]) path ↔
      host.auth_method = .PrivateKey ∧ host.identity_file = some path ∧
        host.advanced.identities_only = true := by
  obtain ⟨auth, hauth, tail, htail, hnone, hidentities, hoptions⟩ := base_args_reads command h
  by_cases hmethod : host.auth_method = .PrivateKey
  · simp only [auth_args, hmethod, Outcome.bind_eq_ok, Option.ok_or_eq_ok, Except.ok.injEq] at hauth
    obtain ⟨identity, hidentity, hargs⟩ := hauth
    obtain ⟨hfiles, hread⟩ := private_key_reads tail hargs
    rw [htail] at hfiles
    constructor
    · intro hoffers
      have hpath : identity = path := by
        have := hfiles.symm.trans (hidentities.symm.trans hoffers.identity)
        exact (List.cons.inj this).1
      refine ⟨hmethod, hpath ▸ hidentity, ?_⟩
      -- otherwise no option says so
      by_contra honly
      have hlookup := hoffers.identities_only
      rw [hoptions _ (by decide), hread, if_neg honly] at hlookup
      exact Option.some_ne_none _ (hlookup.symm.trans (hnone _ (by decide)))
    · rintro ⟨-, hpath, honly⟩
      obtain rfl : identity = path := Option.some.inj (hidentity.symm.trans hpath)
      rw [if_pos honly] at hread
      refine ⟨hidentities.trans hfiles, ?_, ?_, ?_⟩
      · rw [hoptions _ (by decide), hread]
        rfl
      · rw [hoptions _ (by decide), hread]
        rfl
      · intro name hname
        have hfresh : name.toList ∈ AUTHENTICATION_OPTIONS ∧
            (name.toList == "PreferredAuthentications".toList) = false ∧
            (name.toList == "IdentitiesOnly".toList) = false := by
          simp only [List.mem_cons, List.not_mem_nil, or_false] at hname
          rcases hname with rfl | rfl | rfl | rfl
          all_goals decide
        rw [hoptions _ hfresh.1, hread, List.lookup_cons, hfresh.2.1, List.lookup_cons, hfresh.2.2]
        exact hnone _ hfresh.1
  · constructor
    · intro hoffers
      have hnothing : identities (args ++ [destination host, command]) = [] := by
        rw [hidentities, identities_auth_args hauth hmethod, htail]
      exact absurd (hnothing.symm.trans hoffers.identity) (List.cons_ne_nil _ _).symm
    · exact fun hhost => absurd hhost.1 hmethod

end Ssh
