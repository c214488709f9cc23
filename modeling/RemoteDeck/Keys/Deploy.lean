import RemoteDeck.Command.Job
import RemoteDeck.Keys.Authorized

/-! # Deploying a key

    The script that `deploy_key` of `key_service.rs` runs on a server, and
    what it does to `authorized_keys`.  Every command of the script succeeds.

    This file defines:
    - `deploy_command`: the text of the script
    - `awk_columns`, `grep_fqx`, `printf_line`: its tools
    - `deploy_script`: the file after the script
    - `DeploysOnce`: what a deployment is for

    The script looks for the key in the first two columns of a line and adds
    its line behind whatever the file ends with.  The main result is
    `deploys_once_iff`.
-/

namespace Keys

variable {key : CanonicalKey} {content : Text}

/-! ### The script -/

def shell_quote (value : Text) : Text := Command.posix_quote value

def deploy_command (material line : Text) : Text :=
  "set -eu; umask 077; mkdir -p \"$HOME/.ssh\"; chmod 700 \"$HOME/.ssh\"; ".toList ++
  "file=\"$HOME/.ssh/authorized_keys\"; touch \"$file\"; chmod 600 \"$file\"; ".toList ++
  "if ! awk '\x7bprint $1 \" \" $2\x7d' \"$file\" | grep -Fqx -- ".toList ++ shell_quote material ++
  "; then tmp=\"$HOME/.ssh/.remotedeck-authorized-keys-$$\"; ".toList ++
  "trap 'rm -f -- \"$tmp\"' EXIT HUP INT TERM; ".toList ++
  "cat \"$file\" >\"$tmp\"; printf '%s\\n' ".toList ++ shell_quote line ++
  " >>\"$tmp\"; chmod 600 \"$tmp\"; mv -f -- \"$tmp\" \"$file\"; trap - EXIT; fi".toList

/-! ### Its tools -/

def is_blank (c : Char) : Bool := c = ' ' || c = '\t'

/-- The fields of a record. -/
def awk_fields (record : Text) : List Text :=
  (record.splitOnP is_blank).filter fun field => !field.isEmpty

/-- `$1 " " $2`. -/
def awk_columns (record : Text) : Text :=
  (awk_fields record).getD 0 [] ++ ' ' :: (awk_fields record).getD 1 []

/-- One of the lines is the pattern. -/
def grep_fqx (pattern : Text) (lines : List Text) : Bool := lines.contains pattern

/-- `printf '%s\n'`. -/
def printf_line (line : Text) : Text := line ++ ['\n']

/-- The content of `authorized_keys` after the script. -/
def deploy_script (material line content : Text) : Text :=
  if grep_fqx material (content.file_lines.map awk_columns) then content
  else
    -- the file is copied, the line is put behind the copy, the copy replaces the file
    content ++ printf_line line

/-! ### What it is for -/

/-- The materials of the lines that are keys. -/
def materials (content : Text) : List Text :=
  content.file_lines.filterMap fun line => (parse_authorized_key line).map AuthorizedKey.material

def CanonicalKey.deployed (key : CanonicalKey) (content : Text) : Text :=
  deploy_script key.material key.line content

/-- A deployment keeps every line, adds the key if no line has it, and need not
    be repeated. -/
structure DeploysOnce (key : CanonicalKey) (content : Text) : Prop where
  lines_kept : content.file_lines.Sublist (key.deployed content).file_lines
  materials_grow : ∀ material, material ∈ materials (key.deployed content) ↔
    material ∈ materials content ∨ material = key.material
  added_iff : (key.deployed content).file_lines = content.file_lines ++ [key.line] ↔
    key.material ∉ materials content
  again : key.deployed (key.deployed content) = key.deployed content

/-- The script finds the key. -/
def Listed (key : CanonicalKey) (content : Text) : Prop :=
  ∃ line ∈ content.file_lines, awk_columns line = key.material

/-- A line is the key. -/
def Carried (key : CanonicalKey) (content : Text) : Prop :=
  ∃ line ∈ content.file_lines, ∃ parsed, parse_authorized_key line = some parsed ∧
    parsed.material = key.material

theorem carried_iff : Carried key content ↔ key.material ∈ materials content := by
  unfold Carried materials
  simp [List.mem_filterMap]

theorem deployed_of_listed (h : Listed key content) : key.deployed content = content := by
  obtain ⟨line, hline, hcolumns⟩ := h
  have hgrep : grep_fqx key.material (content.file_lines.map awk_columns) = true :=
    List.contains_iff_mem.mpr (List.mem_map.mpr ⟨line, hline, hcolumns⟩)
  exact if_pos hgrep

theorem deployed_of_not_listed (h : ¬ Listed key content) :
    key.deployed content = content ++ key.line ++ ['\n'] := by
  have hgrep : ¬ grep_fqx key.material (content.file_lines.map awk_columns) = true := by
    intro hgrep
    obtain ⟨line, hline, hcolumns⟩ := List.mem_map.mp (List.contains_iff_mem.mp hgrep)
    exact h ⟨line, hline, hcolumns⟩
  have hadded : key.deployed content = content ++ printf_line key.line := if_neg hgrep
  rw [hadded, printf_line, List.append_assoc]

/-! ### The line of a key -/

theorem CanonicalKey.line_newline (key : CanonicalKey) : '\n' ∉ key.line := by
  intro hmem
  have hcontrol := key.line_control '\n' hmem
  exact absurd hcontrol (by decide)

theorem CanonicalKey.line_ne_nil (key : CanonicalKey) : key.line ≠ [] := by
  obtain ⟨rest, hfields⟩ := key.line_fields
  rintro hnil
  rw [hnil, Text.split_whitespace_nil] at hfields
  cases hfields

theorem awk_fields_append_blank (a b : Text) :
    awk_fields (a ++ ' ' :: b) = awk_fields a ++ awk_fields b := by
  simp [awk_fields, List.splitOnP_append_cons _ _ (show is_blank ' ' = true by decide)]

theorem awk_fields_word {word : Text} (h : Text.IsWord word) : awk_fields word = [word] := by
  have hword : ∀ c ∈ word, is_blank c = false := by
    intro c hc
    have hspace := h.2 c hc
    by_contra hblank
    rw [Bool.not_eq_false, is_blank, Bool.or_eq_true, decide_eq_true_eq, decide_eq_true_eq] at hblank
    rcases hblank with rfl | rfl
    · exact absurd hspace (by decide)
    · exact absurd hspace (by decide)
  unfold awk_fields
  rw [List.splitOnP_eq_singleton hword]
  simp [h.1]

/-- The script finds a line that it has added. -/
theorem CanonicalKey.awk_line (key : CanonicalKey) : awk_columns key.line = key.material := by
  have hmaterial : awk_fields key.material = [SSH_ED25519, key.payload] := by
    unfold CanonicalKey.material material_of
    rw [awk_fields_append_blank, awk_fields_word algorithm_word, awk_fields_word key.payload_word]
    rfl
  have hfields : ∃ rest, awk_fields key.line = SSH_ED25519 :: key.payload :: rest := by
    rcases key.line_cases with hline | hline
    · exact ⟨[], by rw [hline, hmaterial]⟩
    · exact ⟨awk_fields key.comment, by rw [hline, awk_fields_append_blank, hmaterial]; rfl⟩
  obtain ⟨rest, hrest⟩ := hfields
  unfold awk_columns
  rw [hrest]
  rfl

/-! ### Files that end, and others -/

/-- Behind the last line of a file that ends, the key is added for good. -/
theorem deploysOnce_of_complete (hlisted : ¬ Listed key content) (hcarried : ¬ Carried key content)
    (hcomplete : content.Complete) : DeploysOnce key content := by
  have hdeployed := deployed_of_not_listed hlisted
  have hlines : (key.deployed content).file_lines = content.file_lines ++ [key.line] := by
    rw [hdeployed, Text.file_lines_append_line hcomplete key.line_newline]
  obtain ⟨parsed, hparsed, -, -, hmaterial⟩ := key.parse_line
  have hmaterials : materials (key.deployed content) = materials content ++ [key.material] := by
    unfold materials
    rw [hlines, List.filterMap_append]
    simp [hparsed, hmaterial]
  have hfound : Listed key (key.deployed content) :=
    ⟨key.line, by rw [hlines]; simp, key.awk_line⟩
  constructor
  · rw [hlines]
    exact List.sublist_append_left _ _
  · intro material
    rw [hmaterials, List.mem_append, List.mem_singleton]
  · exact iff_of_true hlines fun hmem => hcarried (carried_iff.mpr hmem)
  · exact deployed_of_listed hfound

/-- A last line without its newline is lost: the key is glued to it. -/
theorem not_deploysOnce_of_open (hlisted : ¬ Listed key content) (hopen : ¬ content.Complete) :
    ¬ DeploysOnce key content := by
  obtain ⟨front, last, rfl, hfront, hlast⟩ := Text.exists_complete_append content
  have hne : last ≠ [] := by
    rintro rfl
    rw [List.append_nil] at hopen
    exact hopen hfront
  have hglued : '\n' ∉ last ++ key.line := by
    rw [List.mem_append]
    rintro (hmem | hmem)
    · exact hlast hmem
    · exact key.line_newline hmem
  intro h
  have hkept := h.lines_kept
  rw [deployed_of_not_listed hlisted, Text.file_lines_append_open hfront hlast hne,
    List.append_assoc front last, Text.file_lines_append_line hfront hglued] at hkept
  -- there are as many lines as before, so they would be the same
  have hsame := hkept.eq_of_length (by rw [List.length_append, List.length_append]; rfl)
  have hline := List.singleton_inj.mp (List.append_cancel_left hsame)
  exact key.line_ne_nil (List.append_right_eq_self.mp hline.symm)

/-- Where the script finds the key it does nothing, which is right if a line is
    the key. -/
theorem deploysOnce_of_listed (hlisted : Listed key content) :
    DeploysOnce key content ↔ Carried key content := by
  have hdeployed := deployed_of_listed hlisted
  constructor
  · intro h
    have hadded := h.added_iff
    rw [hdeployed] at hadded
    have hnot : ¬ content.file_lines = content.file_lines ++ [key.line] := by
      intro heq
      have hlength := congrArg List.length heq
      simp at hlength
    exact carried_iff.mpr (not_not.mp fun hmem => hnot (hadded.mpr hmem))
  · intro hcarried
    rw [carried_iff] at hcarried
    constructor
    · rw [hdeployed]
    · intro material
      rw [hdeployed]
      constructor
      · exact .inl
      · rintro (hmem | rfl)
        · exact hmem
        · exact hcarried
    · rw [hdeployed]
      refine iff_of_false (fun heq => ?_) (not_not.mpr hcarried)
      have hlength := congrArg List.length heq
      simp at hlength
    · rw [hdeployed, hdeployed]

/-- A key that the script does not see is added a second time. -/
theorem not_deploysOnce_of_hidden (hlisted : ¬ Listed key content) (hcarried : Carried key content) :
    ¬ DeploysOnce key content := by
  intro h
  have hcomplete : content.Complete := not_not.mp fun hopen => not_deploysOnce_of_open hlisted hopen h
  have hlines := Text.file_lines_append_line hcomplete key.line_newline
  rw [← deployed_of_not_listed hlisted] at hlines
  exact h.added_iff.mp hlines (carried_iff.mp hcarried)

/-- **When a deployment is right**: the first two columns of a line are the key
    exactly when a line is read as the key, and the file ends with a newline
    unless the key is there. -/
theorem deploys_once_iff (key : CanonicalKey) (content : Text) :
    DeploysOnce key content ↔
      (Listed key content ↔ Carried key content) ∧ (Carried key content ∨ content.Complete) := by
  by_cases hlisted : Listed key content
  · rw [deploysOnce_of_listed hlisted]
    tauto
  · constructor
    · intro h
      have hcarried : ¬ Carried key content := fun hcarried => not_deploysOnce_of_hidden hlisted hcarried h
      exact ⟨iff_of_false hlisted hcarried,
        .inr (not_not.mp fun hopen => not_deploysOnce_of_open hlisted hopen h)⟩
    · rintro ⟨hsame, hends⟩
      have hcarried : ¬ Carried key content := fun hcarried => hlisted (hsame.mpr hcarried)
      exact deploysOnce_of_complete hlisted hcarried (hends.resolve_left hcarried)

/-! ### Two files that are damaged -/

/-- A key of 32 bytes, without a comment. -/
def CanonicalKey.of_bytes (bytes : List UInt8) (h : bytes.length = 32) : CanonicalKey where
  payload := Base64.encode_no_pad (ed25519_blob bytes)
  comment := []
  valid := ed25519_blob_valid h
  short := Nat.zero_le _
  clean := List.forall_mem_nil _

def plain_key : CanonicalKey := .of_bytes (List.replicate 32 7) (List.length_replicate ..)

/-- A line of a file without a newline at its end. -/
def open_file : Text := "# keys of the lab".toList

def from_option : Text := "from=\"10.0.0.0/8\"".toList

/-- A file whose line has the key behind an option. -/
def restricted_file : Text := from_option ++ ' ' :: plain_key.line ++ ['\n']

/-- The columns are not the key: they begin differently. -/
theorem columns_ne {columns : Text} {c : Char} (hc : c ≠ 's') (h : columns.head? = some c) :
    columns ≠ plain_key.material := by
  rintro rfl
  have hfirst : plain_key.material.head? = some 's' := rfl
  rw [hfirst, Option.some.injEq] at h
  exact hc h.symm

theorem open_file_not_listed : ¬ Listed plain_key open_file := by
  rintro ⟨line, hline, hcolumns⟩
  have hlines : open_file.file_lines = [open_file] := by decide
  have hfirst : (awk_columns open_file).head? = some '#' := by decide
  rw [hlines, List.mem_singleton] at hline
  rw [hline] at hcolumns
  exact columns_ne (by decide) hfirst hcolumns

theorem open_file_open : ¬ open_file.Complete := by
  rintro (hnil | ⟨front, hfront⟩)
  · cases hnil
  · have hlast := congrArg List.getLast? hfront
    rw [List.getLast?_concat] at hlast
    exact absurd hlast (by decide)

theorem from_option_word : Text.IsWord from_option :=
  ⟨by decide, Text.forall_mem_of_all (by decide)⟩

theorem restricted_file_lines :
    restricted_file.file_lines = [from_option ++ ' ' :: plain_key.line] := by
  unfold restricted_file
  rw [Text.file_lines_newline, List.splitOn_eq_singleton]
  rw [List.mem_append, List.mem_cons]
  rintro (hmem | hmem | hmem)
  · exact from_option_word.no_newline hmem
  · exact absurd hmem (by decide)
  · exact plain_key.line_newline hmem

theorem restricted_file_not_listed : ¬ Listed plain_key restricted_file := by
  rintro ⟨line, hline, hcolumns⟩
  rw [restricted_file_lines, List.mem_singleton] at hline
  have hfields : awk_fields line = from_option :: awk_fields plain_key.line := by
    rw [hline, awk_fields_append_blank, awk_fields_word from_option_word, List.singleton_append]
  have hfirst : (awk_columns line).head? = some 'f' := by
    unfold awk_columns
    rw [hfields]
    rfl
  exact columns_ne (by decide) hfirst hcolumns

theorem restricted_file_carried : Carried plain_key restricted_file := by
  obtain ⟨parsed, hparsed, -, -, hmaterial⟩ :=
    plain_key.parse_options from_option_word (c := 'f') rfl (by decide) (by decide) (by decide)
  exact ⟨_, by rw [restricted_file_lines]; exact List.mem_singleton_self _, parsed, hparsed, hmaterial⟩

/-- Behind a last line without its newline the key is lost and that line is
    changed; a key behind an option is added again. -/
theorem damaged_files :
    (plain_key.deployed open_file = open_file ++ plain_key.line ++ ['\n'] ∧
      ¬ DeploysOnce plain_key open_file) ∧
    (Carried plain_key restricted_file ∧
      plain_key.deployed restricted_file = restricted_file ++ plain_key.line ++ ['\n'] ∧
      ¬ DeploysOnce plain_key restricted_file) :=
  ⟨⟨deployed_of_not_listed open_file_not_listed,
      not_deploysOnce_of_open open_file_not_listed open_file_open⟩,
    restricted_file_carried, deployed_of_not_listed restricted_file_not_listed,
    not_deploysOnce_of_hidden restricted_file_not_listed restricted_file_carried⟩

end Keys
