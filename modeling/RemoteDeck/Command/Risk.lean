import RemoteDeck.Model

/-! # Command risk policy

    `risk.rs`: the classification of a shell command and the confirmation it
    requires.  The source has an enumeration `RiskLevel` with the same three
    levels as `CommandRisk` and conversions between the two that keep the
    level; here they are one type.

    The source searches programs in the bytes of a command.  The programs
    are ASCII and no byte of a longer character is an ASCII byte, so the
    search over characters finds the same places.
-/

namespace Command

abbrev RiskLevel := CommandRisk

def MAX_COMMAND_BYTES : Nat := 32 * 1024
def MAX_CONFIRMATION_CHARS : Nat := 256

inductive ConfirmationRequirement where
  | None
  | Acknowledge
  | TypeExact (value : Text)
  deriving DecidableEq, Repr

structure RiskAnalysis where
  declared_risk : RiskLevel
  detected_risk : RiskLevel
  effective_risk : RiskLevel
  reasons : List Text
  confirmation : ConfirmationRequirement
  deriving DecidableEq, Repr

inductive RiskError where
  | InvalidCommand
  | InvalidConfirmationText
  | MissingL2ConfirmationText
  deriving DecidableEq, Repr

def RiskError.to_string : RiskError → Text
  | .InvalidCommand => "command is empty, oversized, or contains NUL".toList
  | .InvalidConfirmationText =>
      "confirmation text is oversized or contains control characters".toList
  | .MissingL2ConfirmationText => "L2 commands require non-empty exact confirmation text".toList

/-! ### Built-in presets -/

structure BuiltinPreset where
  id : Text
  name : Text
  group : Text
  command : Text
  declared_risk : RiskLevel
  requires_pty : Bool
  requires_sudo : Bool
  dependency : Option Text
  deriving DecidableEq, Repr

def BUILTIN_PRESETS : List BuiltinPreset :=
  [ { id := "system-overview".toList
      name := "System overview".toList
      group := "System".toList
      command := "uname -a; hostname; whoami; uptime; lscpu | head -n 20".toList
      declared_risk := .L0
      requires_pty := false
      requires_sudo := false
      dependency := none },
    { id := "gpu-status".toList
      name := "GPU status".toList
      group := "Resources".toList
      command := "nvidia-smi".toList
      declared_risk := .L0
      requires_pty := false
      requires_sudo := false
      dependency := some "nvidia-smi".toList },
    { id := "cpu-memory-processes".toList
      name := "CPU and memory processes".toList
      group := "Resources".toList
      command :=
        "ps -eo pid,ppid,user,pcpu,pmem,state,etime,args --sort=-pcpu | head -n 31".toList
      declared_risk := .L0
      requires_pty := false
      requires_sudo := false
      dependency := none },
    { id := "disk-and-inodes".toList
      name := "Disk and inode usage".toList
      group := "Resources".toList
      command := "df -hT; printf '\\n'; df -ih".toList
      declared_risk := .L0
      requires_pty := false
      requires_sudo := false
      dependency := none },
    { id := "current-user-processes".toList
      name := "Current-user processes".toList
      group := "System".toList
      command := "ps -u \"$USER\" -o pid,ppid,pcpu,pmem,state,etime,args --sort=-pcpu".toList
      declared_risk := .L0
      requires_pty := false
      requires_sudo := false
      dependency := none },
    { id := "listeners".toList
      name := "Listening sockets".toList
      group := "Network".toList
      command := "ss -lntup".toList
      declared_risk := .L0
      requires_pty := false
      requires_sudo := false
      dependency := some "ss".toList },
    { id := "git-status".toList
      name := "Git status".toList
      group := "Development".toList
      command := "git status --short --branch".toList
      declared_risk := .L0
      requires_pty := false
      requires_sudo := false
      dependency := some "git".toList },
    { id := "slurm-queue".toList
      name := "Slurm queue".toList
      group := "Scheduler".toList
      command := "squeue -u \"$USER\"".toList
      declared_risk := .L0
      requires_pty := false
      requires_sudo := false
      dependency := some "squeue".toList },
    { id := "btop".toList
      name := "btop".toList
      group := "Resources".toList
      command := "exec btop".toList
      declared_risk := .L0
      requires_pty := true
      requires_sudo := false
      dependency := some "btop".toList },
    { id := "reboot-workstation".toList
      name := "Reboot workstation".toList
      group := "High risk".toList
      command := "systemctl reboot".toList
      declared_risk := .L2
      requires_pty := true
      requires_sudo := true
      dependency := some "systemctl".toList } ]

def builtin_preset (id : Text) : Option BuiltinPreset :=
  BUILTIN_PRESETS.find? fun preset => preset.id = id

/-! ### Words and programs -/

def shell_words (value : Text) : List Text :=
  (value.split_whitespace.map fun word =>
      (word.trim_matches fun c => "'\"()\x7b\x7d,".toList.contains c).to_ascii_lowercase).filter
    fun word => !word.isEmpty

def is_environment_assignment (value : Text) : Bool :=
  let name := value.takeWhile fun c => c ≠ '='
  value.contains '=' && !name.isEmpty &&
    name.all (fun c => c = '_' || c.isAlphanum) &&
    name.head?.any (fun c => c = '_' || c.isAlpha)

/-- What follows the last slash. -/
def executable_basename (value : Text) : Text := (value.split '/').getLastD value

def is_word_byte (c : Char) : Bool := c.isAlphanum || c = '_' || c = '-' || c = '.'

/-- Whether `program` stands between boundaries at some place of the text
    that follows the character `before`. -/
def contains_command_after (program : Text) (before : Option Char) : Text → Bool
  | [] => false
  | c :: rest =>
      (match Text.strip_leading (c :: rest) program with
        | some after =>
            before.all (fun b => !is_word_byte b || b = '/') &&
              after.head?.all fun a => !is_word_byte a
        | none => false) ||
      contains_command_after program (some c) rest

def contains_command (command program : Text) : Bool :=
  !program.isEmpty && contains_command_after program none command

def contains_any_command (command : Text) (programs : List String) : Bool :=
  programs.any fun program => contains_command command program.toList

def contains_program_prefix (command start : Text) : Bool :=
  (shell_words command).any fun word => (executable_basename word).starts_with start

def contains_any_word (command : Text) (words : List String) : Bool :=
  let dash := fun c => c = '-'
  words.any fun expected => (shell_words command).any fun token =>
    token = expected.toList || token.trim_matches dash = Text.trim_matches dash expected.toList

/-! ### Level one -/

def contains_redirection (command : Text) : Bool := command.contains '>'

def contains_sed_in_place (command : Text) : Bool :=
  contains_command command "sed".toList &&
    (shell_words command).any fun word => word.starts_with "-i".toList

def contains_service_mutation (command : Text) : Bool :=
  contains_any_command command ["systemctl", "service"] &&
    contains_any_word command ["start", "stop", "restart", "reload", "enable", "disable"]

def PACKAGE_MANAGERS : List String :=
  ["apt", "apt-get", "dnf", "yum", "pacman", "zypper", "snap", "npm", "pnpm", "pip", "pip3"]

def contains_package_mutation (command : Text) : Bool :=
  contains_any_command command PACKAGE_MANAGERS &&
    contains_any_word command ["install", "upgrade", "update", "add"]

def contains_mutating_git (command : Text) : Bool :=
  contains_command command "git".toList &&
    contains_any_word command ["add", "commit", "checkout", "switch", "merge", "rebase", "pull",
      "push", "restore", "tag"]

def level_one_findings (command : Text) : List (Bool × String) :=
  [ (contains_any_command command ["cp", "mv", "mkdir", "touch", "chmod", "chown"],
      "May modify files or permissions"),
    (contains_service_mutation command, "Changes service state"),
    (contains_package_mutation command, "Changes installed software"),
    (contains_mutating_git command, "Changes Git state"),
    (contains_redirection command, "Contains output redirection"),
    (contains_any_command command ["tee", "truncate"] || contains_sed_in_place command,
      "Uses a file-writing utility"),
    (command.contains_text "$(".toList || command.contains (Char.ofNat 96),
      "Contains command substitution") ]

/-! ### Level two -/

def contains_systemctl_reboot (command : Text) : Bool :=
  contains_command command "systemctl".toList &&
    contains_any_word command ["reboot", "poweroff", "halt"]

def contains_systemctl_kill (command : Text) : Bool :=
  contains_command command "systemctl".toList && contains_any_word command ["kill"]

def contains_package_removal (command : Text) : Bool :=
  contains_any_command command PACKAGE_MANAGERS &&
    contains_any_word command ["remove", "uninstall", "purge"]

def contains_destructive_git (command : Text) : Bool :=
  let words := shell_words command
  contains_command command "git".toList &&
    ((words.contains "reset".toList && words.contains "--hard".toList) ||
      (words.contains "clean".toList &&
        words.any fun word => word.starts_with ['-'] && word.contains 'f') ||
      (words.contains "push".toList &&
        words.any fun word => word = "--force".toList || word = "--force-with-lease".toList ||
          word = "-f".toList))

def contains_dd_device_copy (command : Text) : Bool :=
  contains_command command "dd".toList &&
    (command.contains_text "if=".toList || command.contains_text "of=".toList)

def contains_find_delete (command : Text) : Bool :=
  contains_command command "find".toList && contains_any_word command ["-delete"]

def contains_remote_script_pipe (command : Text) : Bool :=
  contains_any_command command ["curl", "wget"] && command.contains '|' &&
    contains_any_command command ["sh", "bash", "zsh"]

def level_two_findings (command : Text) : List (Bool × String) :=
  [ (contains_any_command command ["sudo", "su"], "Requests privilege elevation"),
    (contains_any_command command ["reboot", "shutdown", "poweroff", "halt"] ||
        contains_systemctl_reboot command,
      "Can shut down or reboot the host"),
    (contains_any_command command ["rm", "rmdir", "unlink"] || contains_find_delete command,
      "Deletes filesystem entries"),
    (contains_any_command command ["kill", "pkill", "killall"] || contains_systemctl_kill command,
      "Signals or terminates processes"),
    (contains_any_command command ["mkfs", "fdisk", "parted", "wipefs"] ||
        contains_program_prefix command "mkfs.".toList || contains_dd_device_copy command,
      "Can modify disks or filesystems"),
    (contains_destructive_git command, "Contains a destructive Git operation"),
    (contains_remote_script_pipe command, "Downloads and executes a remote script"),
    (contains_package_removal command, "Removes installed software") ]

/-! ### The read-only allowlist -/

def READ_ONLY : List String :=
  ["awk", "btop", "cat", "cut", "date", "df", "du", "echo", "env", "find", "free", "git", "grep",
    "head", "hostname", "id", "ip", "journalctl", "ls", "lscpu", "lsblk", "nvidia-smi", "printf",
    "ps", "pwd", "sed", "squeue", "ss", "stat", "tail", "top", "uname", "uptime", "vmstat", "wc",
    "who", "whoami"]

/-- Whether a word is one of the given texts. -/
def one_of (word : Text) (texts : List String) : Bool := texts.any fun text => word = text.toList

def is_read_only_segment (segment : Text) : Bool :=
  if segment.contains '>' || segment.contains_text "$(".toList ||
      segment.contains (Char.ofNat 96) then
    false
  else
    let words := shell_words segment
    let program_words := (words.dropWhile is_environment_assignment).dropWhile fun word =>
      one_of word ["command", "exec", "if", "then"]
    match program_words with
    | [] => false
    | word :: arguments =>
        let program := executable_basename word
        if !one_of program READ_ONLY then false
        else if program = "git".toList then
          arguments.head?.any fun subcommand =>
            one_of subcommand ["status", "branch", "log", "diff", "show", "rev-parse"]
        else if program = "find".toList && words.contains "-delete".toList then false
        else if program = "sed".toList &&
            words.any fun word => word.starts_with "-i".toList then false
        else true

def split_shell_segments (command : Text) : List Text :=
  ((command.splitOnP fun c => "\n;|&".toList.contains c).map Text.trim).filter
    fun segment => !segment.isEmpty

def is_read_only_command (command : Text) : Bool :=
  let segments := split_shell_segments command
  !segments.isEmpty && segments.all is_read_only_segment

/-! ### Analysis -/

def validate_command (command : Text) : Except RiskError Unit :=
  if command.trim.isEmpty || command.len > MAX_COMMAND_BYTES || command.contains '\x00' then
    .error .InvalidCommand
  else .ok ()

def validate_confirmation_text (value : Text) : Except RiskError Unit :=
  if value.length > MAX_CONFIRMATION_CHARS || value.any Text.is_control then
    .error .InvalidConfirmationText
  else .ok ()

def push_reason (reasons : List Text) (reason : Text) : List Text :=
  if reasons.contains reason then reasons else reasons ++ [reason]

/-- The reasons of the findings that matched, after those already there. -/
def push_findings (findings : List (Bool × String)) (reasons : List Text) : List Text :=
  (findings.filter Prod.fst).foldl (fun reasons finding => push_reason reasons finding.2.toList)
    reasons

def any_finding (findings : List (Bool × String)) : Bool := findings.any Prod.fst

/-- The level of a command, whatever it was declared as. -/
def detected_risk (command : Text) : RiskLevel :=
  let lower := command.to_ascii_lowercase
  if any_finding (level_two_findings lower) then .L2
  else if any_finding (level_one_findings lower) || !is_read_only_command command then .L1
  else .L0

def RiskLevel.debug : RiskLevel → Text
  | .L0 => "L0".toList
  | .L1 => "L1".toList
  | .L2 => "L2".toList

def risk_reasons (command : Text) (declared_risk : RiskLevel) : List Text :=
  let lower := command.to_ascii_lowercase
  let start :=
    if is_read_only_command command then []
    else ["Command is not wholly covered by the read-only allowlist".toList]
  let found := push_findings (level_two_findings lower)
    (push_findings (level_one_findings lower) start)
  if detected_risk command < declared_risk then
    push_reason found ("Preset declares risk ".toList ++ RiskLevel.debug declared_risk)
  else found

/-- The confirmation that a level requires. -/
def confirmation_of (effective_risk : RiskLevel) (l2_confirmation_text : Option Text) :
    Except RiskError ConfirmationRequirement :=
  match effective_risk with
  | .L0 => .ok .None
  | .L1 => .ok .Acknowledge
  | .L2 =>
      match (l2_confirmation_text.map Text.trim).filter fun value => !value.isEmpty with
      | none => .error .MissingL2ConfirmationText
      | some value => do
          validate_confirmation_text value
          .ok (.TypeExact value)

def analyze_command (command : Text) (declared_risk : RiskLevel)
    (l2_confirmation_text : Option Text) : Except RiskError RiskAnalysis := do
  validate_command command
  let effective_risk := max declared_risk (detected_risk command)
  let confirmation ← confirmation_of effective_risk l2_confirmation_text
  .ok
    { declared_risk := declared_risk
      detected_risk := detected_risk command
      effective_risk := effective_risk
      reasons := risk_reasons command declared_risk
      confirmation := confirmation }

end Command
