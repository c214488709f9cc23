import RemoteDeck.Sftp.Commit

/-! # What a commit leaves

    Whatever the steps answer, the content of the destination is still
    there, or at the backup name, or its replacement is in its place.  A
    commit that fails without a failed rollback leaves the destination as it
    was or replaced, unless the remote rename to the backup name took effect
    and reported a failure: no rollback follows that one.
-/

namespace Sftp

/-! ### The three paths of a commit -/

theorem owned_remote_ok {destination job_id ending path : Text}
    (h : owned_remote destination job_id ending = .ok path) :
    ∃ parent name, remote_parent destination = some parent ∧
      remote_file_name destination = some name ∧
      path = remote_join parent (owned_name name job_id ending) := by
  obtain ⟨parent, hparent, h⟩ := Outcome.bind_eq_ok.mp h
  obtain ⟨name, hname, h⟩ := Outcome.bind_eq_ok.mp h
  exact ⟨parent, name, Option.ok_or_eq_ok.mp hparent, Option.ok_or_eq_ok.mp hname,
    (Except.ok.inj h).symm⟩

/-- A destination that has one app-owned name has all of them. -/
theorem owned_remote_other {destination job_id ending path : Text}
    (h : owned_remote destination job_id ending = .ok path) (other : Text) :
    ∃ path, owned_remote destination job_id other = .ok path := by
  obtain ⟨parent, name, hparent, hname, _⟩ := owned_remote_ok h
  refine ⟨remote_join parent (owned_name name job_id other), ?_⟩
  unfold owned_remote
  rw [hparent, hname]
  rfl

theorem getLast?_remote_join (parent : Text) {name : Text} {last : Char}
    (h : name.getLast? = some last) : (remote_join parent name).getLast? = some last := by
  unfold remote_join
  split
  · rw [List.getLast?_cons, h]
    rfl
  · split
    · rw [List.getLast?_append, h]
      rfl
    · rw [List.getLast?_append, List.getLast?_cons, h]
      rfl

theorem getLast?_owned_name (name job_id : Text) {ending : Text} {last : Char}
    (h : ending.getLast? = some last) : (owned_name name job_id ending).getLast? = some last := by
  unfold owned_name
  rw [List.getLast?_append, h]
  rfl

theorem length_remote_join (parent name : Text) :
    parent.length + name.length ≤ (remote_join parent name).length := by
  unfold remote_join
  split
  · next hroot =>
    rw [hroot, List.length_cons]
    show 1 + name.length ≤ _
    omega
  · split
    · rw [List.length_append]
    · rw [List.length_append, List.length_cons]
      omega

theorem length_owned_name (name job_id ending : Text) :
    name.length + 13 ≤ (owned_name name job_id ending).length := by
  have hdot : ".".toList.length = 1 := rfl
  have hinfix : ".remotedeck-".toList.length = 12 := rfl
  unfold owned_name
  simp only [List.length_append]
  omega

/-- A parent and a name have all but the slashes of a path. -/
theorem length_remote_path {path parent name : Text} (hparent : remote_parent path = some parent)
    (hname : remote_file_name path = some name) :
    (trim_end_slashes path).length ≤ parent.length + 1 + name.length := by
  have hsplit : (trim_end_slashes path).rdropWhile (· ≠ '/') ++
      (trim_end_slashes path).rtakeWhile (· ≠ '/') = trim_end_slashes path :=
    List.rdropWhile_append_rtakeWhile
  have hlength := congrArg List.length hsplit
  rw [List.length_append] at hlength
  unfold remote_file_name at hname
  obtain ⟨_, hname⟩ := Option.ite_none_left_eq_some.mp hname
  rw [Option.some.inj hname] at hlength
  unfold remote_parent at hparent
  obtain ⟨_, hparent⟩ := Option.ite_none_left_eq_some.mp hparent
  dsimp only at hparent
  split at hparent
  · next hindex =>
    rw [← Option.some.inj hparent]
    show _ ≤ 1 + 1 + name.length
    omega
  · split at hparent
    · next hindex =>
      have hone := of_decide_eq_true (Bool.and_eq_true_iff.mp hindex).1
      rw [← Option.some.inj hparent]
      show _ ≤ 2 + 1 + name.length
      omega
    · rw [← Option.some.inj hparent, List.length_dropLast]
      omega

/-- An app-owned name is not the destination. -/
theorem owned_remote_ne {destination job_id ending path : Text} {last : Char}
    (h : owned_remote destination job_id ending = .ok path) (hending : ending.getLast? = some last)
    (hlast : last ≠ '/') : path ≠ destination := by
  intro hsame
  obtain ⟨parent, name, hparent, hname, hpath⟩ := owned_remote_ok h
  have hend : destination.getLast? = some last := by
    rw [← hsame, hpath]
    exact getLast?_remote_join parent (getLast?_owned_name name job_id hending)
  have htrim : trim_end_slashes destination = destination := by
    apply List.rdropWhile_eq_self_iff.mpr
    intro hne
    rw [List.getLast?_eq_getLast_of_ne_nil hne] at hend
    rw [Option.some.inj hend]
    exact fun hslash => hlast (of_decide_eq_true hslash)
  have hshort := length_remote_path hparent hname
  have hlong := length_remote_join parent (owned_name name job_id ending)
  have hname_length := length_owned_name name job_id ending
  rw [htrim, ← hsame, hpath] at hshort
  omega

/-- What the three paths of a remote commit are to each other. -/
theorem remote_paths {destination job_id temporary : Text}
    (h : owned_remote_temp destination job_id = .ok temporary) :
    ∃ backup, owned_remote_backup destination job_id = .ok backup ∧ temporary ≠ destination ∧
      backup ≠ destination ∧ temporary ≠ backup := by
  obtain ⟨backup, hbackup⟩ := owned_remote_other h ".backup".toList
  refine ⟨backup, hbackup, owned_remote_ne h rfl (by decide), owned_remote_ne hbackup rfl (by decide), ?_⟩
  intro hsame
  obtain ⟨parent, name, _, _, htemporary⟩ := owned_remote_ok h
  obtain ⟨parent', name', _, _, hbackup⟩ := owned_remote_ok hbackup
  have hpart : temporary.getLast? = some 't' := by
    rw [htemporary]
    exact getLast?_remote_join parent (getLast?_owned_name name job_id rfl)
  have hother : backup.getLast? = some 'p' := by
    rw [hbackup]
    exact getLast?_remote_join parent' (getLast?_owned_name name' job_id rfl)
  rw [hsame, hother] at hpart
  exact absurd hpart (by decide)

theorem owned_local_ok {destination path : LocalPath} {job_id ending : Text}
    (h : owned_local destination job_id ending = .ok path) :
    ∃ parent name, destination.parent = some parent ∧
      destination.file_name = some (.unicode name) ∧
      path = LocalPath.join parent (owned_name name job_id ending) := by
  obtain ⟨parent, hparent, h⟩ := Outcome.bind_eq_ok.mp h
  obtain ⟨name, hname, h⟩ := Outcome.bind_eq_ok.mp h
  obtain ⟨os_name, hos_name, hstr⟩ := Option.bind_eq_some_iff.mp (Option.ok_or_eq_ok.mp hname)
  refine ⟨parent, name, Option.ok_or_eq_ok.mp hparent, ?_, (Except.ok.inj h).symm⟩
  cases os_name with
  | unicode other =>
    rw [hos_name, Option.some.inj hstr]
  | other bytes => exact absurd hstr.symm (Option.some_ne_none name)

theorem owned_local_ne {destination path : LocalPath} {job_id ending : Text}
    (h : owned_local destination job_id ending = .ok path) : path ≠ destination := by
  intro hsame
  obtain ⟨parent, name, _, hname, hpath⟩ := owned_local_ok h
  have hlong := length_owned_name name job_id ending
  rw [← hsame, hpath] at hname
  have howned := OsName.unicode.inj (Option.some.inj hname)
  rw [howned] at hlong
  omega

/-- What the three paths of a local commit are to each other. -/
theorem local_paths {destination temporary : LocalPath} {job_id : Text}
    (h : owned_local_temp destination job_id = .ok temporary) :
    ∃ backup, owned_local_backup destination job_id = .ok backup ∧ temporary ≠ destination ∧
      backup ≠ destination ∧ temporary ≠ backup := by
  obtain ⟨parent, name, hparent, hname, htemporary⟩ := owned_local_ok h
  have hbackup : owned_local_backup destination job_id =
      .ok (LocalPath.join parent (owned_name name job_id ".backup".toList)) := by
    unfold owned_local_backup owned_local
    rw [hparent, hname]
    rfl
  refine ⟨_, hbackup, owned_local_ne h, owned_local_ne hbackup, ?_⟩
  intro hsame
  rw [htemporary] at hsame
  have hnames := OsName.unicode.inj (Option.some.inj (congrArg LocalPath.file_name hsame))
  have hendings := List.append_cancel_left hnames
  exact absurd hendings (by decide)

/-! ### The exchange -/

section
variable {Path Content Err : Type} {files files' : Files Path Content} {temporary destination backup : Path}
variable {result : Except CommitError Unit}

/-- The complete replacement is at the destination. -/
def Replaced (files files' : Files Path Content) (temporary destination : Path) : Prop :=
  ∃ content, files temporary = some content ∧ files' destination = some content

/-- What a commit keeps of its destination. -/
structure Kept (files files' : Files Path Content) (temporary destination backup : Path)
    (result : Except CommitError Unit) : Prop where
  /-- No content is lost. -/
  content : ∀ original, files destination = some original →
    files' destination = some original ∨ files' backup = some original ∨
      Replaced files files' temporary destination
  /-- A failure leaves the destination as it was, or replaced, or it reports
      that the rollback failed. -/
  settled : ∀ error, result = .error error → error.rollback_failed = false →
    files' destination = files destination ∨ Replaced files files' temporary destination

theorem Kept.same (hsame : files' destination = files destination) :
    Kept files files' temporary destination backup result where
  content := fun _ horiginal => .inl (hsame.trans horiginal)
  settled := fun _ _ _ => .inl hsame

theorem Kept.replaced (h : Replaced files files' temporary destination) :
    Kept files files' temporary destination backup result where
  content := fun _ _ => .inr (.inr h)
  settled := fun _ _ _ => .inr h

variable [DecidableEq Path]

theorem move_destination (files : Files Path Content) (source destination : Path) (content : Content) :
    files.move source destination content destination = some content := Function.update_self ..

theorem move_source (files : Files Path Content) {source destination : Path}
    (hne : source ≠ destination) (content : Content) :
    files.move source destination content source = none := by
  unfold Files.move
  rw [Function.update_of_ne hne, Function.update_self]

theorem move_other (files : Files Path Content) {source destination path : Path}
    (hsource : path ≠ source) (hdestination : path ≠ destination) (content : Content) :
    files.move source destination content path = files path := by
  unfold Files.move
  rw [Function.update_of_ne hdestination, Function.update_of_ne hsource]

/-- A rename takes effect or changes nothing, and only a lost one takes
    effect and fails. -/
theorem rename_cases {source : Path} {answer : RenameAnswer Err} {renamed : Except Err Unit}
    (h : files.rename source destination answer = some (renamed, files')) :
    (∃ content, files source = some content ∧ files' = files.move source destination content ∧
      (renamed = .ok () ∨ ∃ error, renamed = .error error ∧ answer = .lost error)) ∨
    ∃ error, renamed = .error error ∧ files' = files := by
  cases answer with
  | renamed =>
    obtain ⟨content, hcontent, hpair⟩ := Option.map_eq_some_iff.mp h
    obtain ⟨rfl, rfl⟩ := Prod.mk.inj hpair
    exact .inl ⟨content, hcontent, rfl, .inl rfl⟩
  | failed error =>
    obtain ⟨rfl, rfl⟩ := Prod.mk.inj (Option.some.inj h)
    exact .inr ⟨error, rfl, rfl⟩
  | lost error =>
    obtain ⟨content, hcontent, hpair⟩ := Option.map_eq_some_iff.mp h
    obtain ⟨rfl, rfl⟩ := Prod.mk.inj hpair
    exact .inl ⟨content, hcontent, rfl, .inr ⟨error, rfl, rfl⟩⟩

variable {answers : ExchangeAnswers Err} {texts : ErrorTexts Err}
variable {delete : Files Path Content → AppResult Unit × Files Path Content}

/-- The second rename leaves the original at the backup name. -/
theorem replace_cases {original : Content} {replaced : Except Err Unit} {files₁ : Files Path Content}
    (htd : temporary ≠ destination) (hbd : backup ≠ destination) (htb : temporary ≠ backup)
    (hrename : (files.move destination backup original).rename temporary destination
      answers.replace = some (replaced, files₁)) :
    (Replaced files files₁ temporary destination ∨ ∃ error, replaced = .error error) ∧
      files₁ backup = some original := by
  have hbackup := move_destination files destination backup original
  have htemporary := move_other files htd htb original
  rcases rename_cases hrename with ⟨content, hcontent, rfl, _⟩ | ⟨error, hfailed, rfl⟩
  · rw [htemporary] at hcontent
    rw [move_other _ htb.symm hbd]
    exact ⟨.inl ⟨content, hcontent, move_destination _ temporary destination content⟩, hbackup⟩
  · exact ⟨.inr ⟨error, hfailed⟩, hbackup⟩

theorem exchange_kept (htd : temporary ≠ destination) (hbd : backup ≠ destination)
    (htb : temporary ≠ backup)
    (hdelete : ∀ files path, path ≠ backup → (delete files).2 path = files path)
    (haside : ∀ error, answers.aside ≠ .lost error)
    (h : exchange answers texts delete temporary destination backup files = some (result, files')) :
    Kept files files' temporary destination backup result := by
  obtain ⟨⟨moved, files₁⟩, hmoved, hmoved_rest⟩ := Option.bind_eq_some_iff.mp h
  rcases rename_cases hmoved with ⟨original, horiginal, rfl, hresult⟩ | ⟨error, rfl, rfl⟩
  · obtain rfl := hresult.resolve_right fun ⟨error, _, hlost⟩ => haside error hlost
    obtain ⟨⟨replaced, files₂⟩, hreplaced, hreplaced_rest⟩ := Option.bind_eq_some_iff.mp hmoved_rest
    obtain ⟨hreplacement, hbackup⟩ := replace_cases htd hbd htb hreplaced
    cases replaced with
    | error replace_error =>
      obtain ⟨⟨rolled_back, files₃⟩, hrolled, hrolled_rest⟩ :=
        Option.bind_eq_some_iff.mp hreplaced_rest
      rcases rename_cases hrolled with ⟨content, hcontent, rfl, _⟩ | ⟨error, rfl, rfl⟩
      · -- the original is back, whatever the rollback reports
        have hback : files₂.move backup destination content destination = files destination := by
          rw [move_destination, horiginal, ← hcontent, hbackup]
        cases rolled_back with
        | error error =>
          obtain ⟨_, rfl⟩ := Prod.mk.inj (Option.some.inj hrolled_rest)
          exact Kept.same hback
        | ok _ =>
          obtain ⟨_, rfl⟩ := Prod.mk.inj (Option.some.inj hrolled_rest)
          exact Kept.same hback
      · obtain ⟨rfl, rfl⟩ := Prod.mk.inj (Option.some.inj hrolled_rest)
        refine ⟨?_, ?_⟩
        · intro content hcontent
          rw [horiginal] at hcontent
          exact .inr (.inl (hbackup.trans hcontent))
        · intro failure hfailure hreports
          obtain rfl := Except.error.inj hfailure
          exact absurd hreports.symm Bool.false_ne_true
    | ok _ =>
      obtain ⟨content, hcontent, hdestination⟩ :=
        hreplacement.resolve_right fun ⟨error, hfailed⟩ => nomatch hfailed
      have hkept : Replaced files (delete files₂).2 temporary destination := by
        refine ⟨content, hcontent, ?_⟩
        rw [hdelete files₂ destination hbd.symm]
        exact hdestination
      have hfiles : files' = (delete files₂).2 := by
        dsimp only at hreplaced_rest
        split at hreplaced_rest
        · exact (Prod.mk.inj (Option.some.inj hreplaced_rest)).2.symm
        · exact (Prod.mk.inj (Option.some.inj hreplaced_rest)).2.symm
      rw [hfiles]
      exact Kept.replaced hkept
  · obtain ⟨_, rfl⟩ := Prod.mk.inj (Option.some.inj hmoved_rest)
    exact Kept.same rfl

/-- After a lost rename to the backup name there is nothing at the destination. -/
theorem exchange_lost {error : Err} (hbd : backup ≠ destination) (haside : answers.aside = .lost error)
    (h : exchange answers texts delete temporary destination backup files = some (result, files')) :
    result = .error (.of (texts.app_error error)) ∧ files' destination = none ∧
      ∃ original, files destination = some original ∧ files' backup = some original := by
  obtain ⟨⟨moved, files₁⟩, hmoved, hrest⟩ := Option.bind_eq_some_iff.mp h
  rw [haside] at hmoved
  obtain ⟨original, horiginal, hpair⟩ := Option.map_eq_some_iff.mp hmoved
  obtain ⟨rfl, rfl⟩ := Prod.mk.inj hpair
  obtain ⟨rfl, rfl⟩ := Prod.mk.inj (Option.some.inj hrest)
  exact ⟨rfl, move_source files hbd.symm original, original, horiginal,
    move_destination files destination backup original⟩

/-- A commit without an original renames the temporary. -/
theorem rename_kept {app_error : Err → AppError} {replace : RenameAnswer Err}
    (h : (files.rename temporary destination replace).map (committed app_error) =
      some (result, files')) : Kept files files' temporary destination backup result := by
  obtain ⟨⟨renamed, files₁⟩, hrename, hpair⟩ := Option.map_eq_some_iff.mp h
  obtain ⟨_, rfl⟩ := Prod.mk.inj hpair
  rcases rename_cases hrename with ⟨content, hcontent, rfl, _⟩ | ⟨error, _, rfl⟩
  · exact Kept.replaced ⟨content, hcontent, move_destination files temporary destination content⟩
  · exact Kept.same rfl

end

/-! ### The two commits -/

section
variable {Content : Type} {parse_uuid : Text → Bool} {job_id : Text} {policy : ConflictPolicy}
variable {result : Except CommitError Unit}

theorem remove_frame {Path : Type} [DecidableEq Path] (files : Files Path Content) {path backup : Path}
    (hne : path ≠ backup) (answer : RemoveAnswer Content) :
    (files.remove backup answer).2 path = files path := by
  cases answer with
  | removed => exact Function.update_of_ne hne none files
  | failed error left => exact Function.update_of_ne hne left files

theorem delete_other (answers : RemoteAnswers Content) (backup : Text) (recursive : Bool)
    (files : Files Text Content) (path : Text) (hne : path ≠ backup) :
    (delete answers backup recursive files).2 path = files path := by
  unfold delete
  split
  · rfl
  · rfl
  · split
    · split
      · exact remove_frame files hne _
      · exact remove_frame files hne _
    · exact remove_frame files hne _

theorem remove_other (answers : LocalAnswers Content) (backup : LocalPath)
    (files : Files LocalPath Content) (path : LocalPath) (hne : path ≠ backup) :
    (remove_local_backup_if_owned answers parse_uuid backup files).2 path = files path := by
  unfold remove_local_backup_if_owned remove_local_path
  split
  · rfl
  · split
    · rfl
    · rfl
    · exact remove_frame files hne _
    · exact remove_frame files hne _

/-- A remote commit comes to the rename of the destination to the backup
    name, and that rename takes effect and reports a failure. -/
def loses_aside (parse_uuid : Text → Bool) (answers : RemoteAnswers Content)
    (job_id destination : Text) (existing : Option SftpEntry) (policy : ConflictPolicy) : Prop :=
  existing ≠ none ∧ policy = .Overwrite ∧
    (∃ backup, owned_remote_backup destination job_id = .ok backup ∧
      is_owned_remote_backup parse_uuid backup = true) ∧
    answers.backup_metadata = .ok none ∧ ∃ error, answers.renames.aside = .lost error

/-- A remote commit stops at a check, renames the temporary, or comes to the exchange. -/
theorem commit_remote_cases {answers : RemoteAnswers Content} {temporary destination : Text}
    {existing : Option SftpEntry} {files files' : Files Text Content}
    (h : commit_remote_transfer answers parse_uuid job_id temporary destination existing policy files =
      some (result, files')) :
    (files' = files ∧ ¬loses_aside parse_uuid answers job_id destination existing policy) ∨
    (existing = none ∧ (files.rename temporary destination answers.renames.replace).map (committed id) =
      some (result, files')) ∨
    ∃ backup recursive, owned_remote_backup destination job_id = .ok backup ∧
      (loses_aside parse_uuid answers job_id destination existing policy ↔
        ∃ error, answers.renames.aside = .lost error) ∧
      exchange answers.renames ⟨id, AppError.to_string, backup⟩ (delete answers backup recursive)
        temporary destination backup files = some (result, files') := by
  unfold commit_remote_transfer at h
  cases existing with
  | none => exact .inr (.inl ⟨rfl, h⟩)
  | some existing =>
    dsimp only at h
    split at h
    · next hpolicy =>
      obtain ⟨_, rfl⟩ := Prod.mk.inj (Option.some.inj h)
      exact .inl ⟨rfl, fun hlost => hpolicy hlost.2.1⟩
    · next hpolicy =>
      split at h
      · next error hbackup =>
        obtain ⟨_, rfl⟩ := Prod.mk.inj (Option.some.inj h)
        refine .inl ⟨rfl, ?_⟩
        intro hlost
        obtain ⟨backup, hok, _⟩ := hlost.2.2.1
        rw [hbackup] at hok
        nomatch hok
      · next backup hbackup =>
        split at h
        · next howned =>
          obtain ⟨_, rfl⟩ := Prod.mk.inj (Option.some.inj h)
          refine .inl ⟨rfl, ?_⟩
          intro hlost
          obtain ⟨other, hok, hother⟩ := hlost.2.2.1
          obtain rfl := Except.ok.inj (hbackup.symm.trans hok)
          rw [hother] at howned
          exact absurd howned Bool.false_ne_true
        · next howned =>
          split at h
          · next error hmetadata =>
            obtain ⟨_, rfl⟩ := Prod.mk.inj (Option.some.inj h)
            refine .inl ⟨rfl, ?_⟩
            intro hlost
            have hnone := hmetadata.symm.trans hlost.2.2.2.1
            nomatch hnone
          · next entry hmetadata =>
            obtain ⟨_, rfl⟩ := Prod.mk.inj (Option.some.inj h)
            refine .inl ⟨rfl, ?_⟩
            intro hlost
            have hnone := hmetadata.symm.trans hlost.2.2.2.1
            nomatch hnone
          · next hmetadata =>
            have howned : is_owned_remote_backup parse_uuid backup = true := by
              cases hcheck : is_owned_remote_backup parse_uuid backup with
              | true => rfl
              | false =>
                rw [hcheck] at howned
                exact absurd rfl howned
            refine .inr (.inr ⟨backup, _, hbackup, ?_, h⟩)
            constructor
            · intro hlost
              exact hlost.2.2.2.2
            · intro hlost
              exact ⟨Option.some_ne_none existing, Classical.not_not.mp hpolicy,
                ⟨backup, hbackup, howned⟩, hmetadata, hlost⟩

theorem remote_commit_kept {answers : RemoteAnswers Content} {temporary destination : Text}
    {existing : Option SftpEntry} {files files' : Files Text Content}
    (htemporary : owned_remote_temp destination job_id = .ok temporary)
    (h : commit_remote_transfer answers parse_uuid job_id temporary destination existing policy files =
      some (result, files')) :
    ∃ backup, owned_remote_backup destination job_id = .ok backup ∧
      (Kept files files' temporary destination backup result ↔
        ¬loses_aside parse_uuid answers job_id destination existing policy) ∧
      (loses_aside parse_uuid answers job_id destination existing policy → ∃ original,
        files destination = some original ∧ files' destination = none ∧
          files' backup = some original) := by
  obtain ⟨backup, hbackup, htd, hbd, htb⟩ := remote_paths htemporary
  refine ⟨backup, hbackup, ?_⟩
  rcases commit_remote_cases h with ⟨rfl, hlost⟩ | ⟨rfl, hrename⟩ | ⟨other, recursive, hok, hlost, hrun⟩
  · exact ⟨iff_of_true (Kept.same rfl) hlost, fun h => absurd h hlost⟩
  · have hnot : ¬loses_aside parse_uuid answers job_id destination none policy :=
      fun hlost => hlost.1 rfl
    exact ⟨iff_of_true (rename_kept hrename) hnot, fun h => absurd h hnot⟩
  · obtain rfl := Except.ok.inj (hbackup.symm.trans hok)
    rw [hlost]
    by_cases haside : ∃ error, answers.renames.aside = .lost error
    · obtain ⟨error, herror⟩ := haside
      obtain ⟨hresult, hgone, original, horiginal, hsaved⟩ := exchange_lost hbd herror hrun
      have hbroken : ¬Kept files files' temporary destination backup result := by
        intro hkept
        rcases hkept.settled _ hresult rfl with hsame | ⟨content, _, hreplaced⟩
        · rw [hgone, horiginal] at hsame
          exact absurd hsame.symm (Option.some_ne_none original)
        · rw [hgone] at hreplaced
          exact absurd hreplaced.symm (Option.some_ne_none content)
      exact ⟨iff_of_false hbroken fun hnot => hnot ⟨error, herror⟩,
        fun _ => ⟨original, horiginal, hgone, hsaved⟩⟩
    · have hkept : Kept files files' temporary destination backup result :=
        exchange_kept htd hbd htb (delete_other answers backup recursive)
          (fun error herror => haside ⟨error, herror⟩) hrun
      exact ⟨iff_of_true hkept haside, fun h => absurd h haside⟩

theorem local_renames_not_lost (answer : LocalAnswer) (error : Text) : answer.rename ≠ .lost error := by
  intro hlost
  cases answer with
  | renamed => nomatch hlost
  | failed other => nomatch hlost

theorem local_commit_kept {answers : LocalAnswers Content} {display : LocalPath → Text}
    {temporary destination : LocalPath} {files files' : Files LocalPath Content}
    (htemporary : owned_local_temp destination job_id = .ok temporary)
    (h : commit_local_transfer answers parse_uuid display job_id temporary destination policy files =
      some (result, files')) :
    ∃ backup, owned_local_backup destination job_id = .ok backup ∧
      Kept files files' temporary destination backup result := by
  obtain ⟨backup, hbackup, htd, hbd, htb⟩ := local_paths htemporary
  refine ⟨backup, hbackup, ?_⟩
  unfold commit_local_transfer at h
  split at h
  · obtain ⟨_, rfl⟩ := Prod.mk.inj (Option.some.inj h)
    exact Kept.same rfl
  · exact rename_kept h
  · split at h
    · obtain ⟨_, rfl⟩ := Prod.mk.inj (Option.some.inj h)
      exact Kept.same rfl
    · rw [hbackup] at h
      dsimp only at h
      split at h
      · obtain ⟨_, rfl⟩ := Prod.mk.inj (Option.some.inj h)
        exact Kept.same rfl
      · obtain ⟨_, rfl⟩ := Prod.mk.inj (Option.some.inj h)
        exact Kept.same rfl
      · exact exchange_kept htd hbd htb (remove_other answers backup)
          (local_renames_not_lost answers.aside) h

end

/-- **The commits of a transfer.** A remote one keeps its destination unless
    the rename to the backup name is lost, a local one always. -/
theorem commits_keep_destination {Content : Type} (parse_uuid : Text → Bool) (job_id : Text)
    (policy : ConflictPolicy) (result : Except CommitError Unit) :
    (∀ (answers : RemoteAnswers Content) temporary destination existing files files',
      owned_remote_temp destination job_id = .ok temporary →
      commit_remote_transfer answers parse_uuid job_id temporary destination existing policy files =
        some (result, files') →
      ∃ backup, owned_remote_backup destination job_id = .ok backup ∧
        (Kept files files' temporary destination backup result ↔
          ¬loses_aside parse_uuid answers job_id destination existing policy) ∧
        -- the original waits at the backup name
        (loses_aside parse_uuid answers job_id destination existing policy → ∃ original,
          files destination = some original ∧ files' destination = none ∧
            files' backup = some original)) ∧
    ∀ (answers : LocalAnswers Content) display temporary destination files files',
      owned_local_temp destination job_id = .ok temporary →
      commit_local_transfer answers parse_uuid display job_id temporary destination policy files =
        some (result, files') →
      ∃ backup, owned_local_backup destination job_id = .ok backup ∧
        Kept files files' temporary destination backup result := by
  constructor
  · intro answers temporary destination existing files files' htemporary h
    exact remote_commit_kept htemporary h
  · intro answers display temporary destination files files' htemporary h
    exact local_commit_kept htemporary h

/-! ### A lost rename -/

/-- The hyphenated form, which `Uuid::parse_str` accepts. -/
def is_hyphenated (text : Text) : Bool :=
  (text.split '-').map List.length = [8, 4, 4, 4, 12] &&
    text.all fun c => c = '-' || Text.is_ascii_hexdigit c

def commit_job : Text := "6f1d7c52-3b0e-4a7d-9a55-0c2f8d1e4b90".toList

def result_dat : Text := "/srv/result.dat".toList

def result_part : Text := "/srv/.result.dat.remotedeck-6f1d7c52-3b0e-4a7d-9a55-0c2f8d1e4b90.part".toList

/-- The original is `0`, its replacement `1`. -/
def result_files : Files Text Nat := fun path =>
  if path = result_dat then some 0 else if path = result_part then some 1 else none

/-- The answers of a service that does all it is asked, but for the first rename. -/
def result_answers (aside : RenameAnswer AppError) : RemoteAnswers Nat where
  backup_metadata := .ok none
  renames := ⟨aside, .renamed, .renamed⟩
  delete_metadata := .ok (some ⟨.File⟩)
  delete := fun _ => .removed

def connection_closed : AppError := .Process "Connection closed".toList

/-- The destination is gone, and the error does not say that a rollback failed. -/
theorem lost_rename_empties_destination : ∃ files',
    commit_remote_transfer (result_answers (.lost connection_closed)) is_hyphenated commit_job
      result_part result_dat (some ⟨.File⟩) .Overwrite result_files =
        some (.error (.of connection_closed), files') ∧
    result_files result_dat = some 0 ∧ files' result_dat = none := by
  have hrun : (commit_remote_transfer (result_answers (.lost connection_closed)) is_hyphenated
      commit_job result_part result_dat (some ⟨.File⟩) .Overwrite result_files).any
        (fun committed => committed.1 = .error (.of connection_closed) &&
          committed.2 result_dat = none) = true := by decide +kernel
  obtain ⟨⟨result, files'⟩, hcommit, hboth⟩ := (Option.any_eq_true _ _).mp hrun
  obtain ⟨hresult, hgone⟩ := Bool.and_eq_true_iff.mp hboth
  have hresult : result = .error (.of connection_closed) := of_decide_eq_true hresult
  rw [hresult] at hcommit
  exact ⟨files', hcommit, rfl, of_decide_eq_true hgone⟩

/-- A remote commit without failures. -/
theorem result_replaced : ∃ files' backup,
    commit_remote_transfer (result_answers .renamed) is_hyphenated commit_job result_part result_dat
      (some ⟨.File⟩) .Overwrite result_files = some (.ok (), files') ∧
    Kept result_files files' result_part result_dat backup (.ok ()) := by
  have hrun : (commit_remote_transfer (result_answers .renamed) is_hyphenated commit_job result_part
      result_dat (some ⟨.File⟩) .Overwrite result_files).any
        (fun committed => committed.1 = .ok ()) = true := by decide +kernel
  obtain ⟨⟨result, files'⟩, hcommit, hresult⟩ := (Option.any_eq_true _ _).mp hrun
  have hresult : result = .ok () := of_decide_eq_true hresult
  rw [hresult] at hcommit
  have htemporary : owned_remote_temp result_dat commit_job = .ok result_part := by decide +kernel
  obtain ⟨backup, _, hkept, _⟩ :=
    (commits_keep_destination is_hyphenated commit_job .Overwrite (.ok ())).1
      (result_answers .renamed) _ _ _ _ _ htemporary hcommit
  refine ⟨files', backup, hcommit, hkept.mpr ?_⟩
  intro hlost
  obtain ⟨error, herror⟩ := hlost.2.2.2.2
  nomatch herror

end Sftp
